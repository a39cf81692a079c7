/-!
# Checked operations

An operation that a program may not carry out with all arguments is checked: it gives a
result, or it names the `Panic` that stops the program.

* `Checked.add` and `Checked.sub` compute in machine words and refuse a result that does not
  fit one.
* `Checked.slice` takes a part of a text by byte offsets. The offsets must be ascending, must
  not leave the text, and must not fall inside the bytes of one character.
-/

namespace LoxFront

/-- Why an operation stops the program. -/
inductive Panic where
  /-- A part of a text was asked for that begins or ends inside a character or outside the
  text. -/
  | slice
  /-- A number does not fit a machine word. -/
  | overflow
  /-- A token without a literal was asked for of a kind that demands one. -/
  | literalRequired
  /-- A text that is not a numeral was to be read as one. -/
  | notANumeral
deriving DecidableEq, Repr

/-- A result, unless the program was stopped. -/
abbrev Checked (α : Type) := Except Panic α

namespace Checked

/-- The largest machine word. -/
def maxWord : Nat := 0xFFFFFFFFFFFFFFFF

/-- The largest size of a text, in bytes. -/
def maxSize : Nat := 0x7FFFFFFFFFFFFFFF

def add (m n : Nat) : Checked Nat := if m + n ≤ maxWord then .ok (m + n) else .error .overflow

def sub (m n : Nat) : Checked Nat := if n ≤ m then .ok (m - n) else .error .overflow

/-- **A part of a text**, from the byte offset `first` up to the byte offset `last`. -/
def slice (s : String) (first last : Nat) : Checked String :=
  if h : first ≤ last ∧ (⟨first⟩ : String.Pos.Raw).IsValid s ∧
      (⟨last⟩ : String.Pos.Raw).IsValid s then
    .ok (s.extract ⟨⟨first⟩, h.2.1⟩ ⟨⟨last⟩, h.2.2⟩)
  else .error .slice

@[simp] theorem ok_bind {α β : Type} (a : α) (f : α → Checked β) : Except.ok a >>= f = f a := rfl

theorem bind_eq_ok_iff {α β : Type} {x : Checked α} {f : α → Checked β} {b : β} :
    x >>= f = .ok b ↔ ∃ a, x = .ok a ∧ f a = .ok b := by
  cases x with
  | error e => simp [bind, Except.bind]
  | ok a => simp [bind, Except.bind]

theorem add_eq_ok_iff {m n k : Nat} : add m n = .ok k ↔ m + n ≤ maxWord ∧ k = m + n := by
  by_cases h : m + n ≤ maxWord <;> simp [add, h, eq_comm (a := k)]

theorem sub_eq_ok_iff {m n k : Nat} : sub m n = .ok k ↔ n ≤ m ∧ k = m - n := by
  by_cases h : n ≤ m <;> simp [sub, h, eq_comm (a := k)]

/-- A slice lies within the text and is as long as the offsets are apart. -/
theorem utf8ByteSize_of_slice {s text : String} {first last : Nat}
    (h : slice s first last = .ok text) :
    first ≤ last ∧ last ≤ s.utf8ByteSize ∧ text.utf8ByteSize = last - first := by
  unfold slice at h
  split at h
  · next hvalid =>
    obtain rfl := Except.ok.inj h
    have hlast := hvalid.2.2.le_utf8ByteSize
    refine ⟨hvalid.1, hlast, ?_⟩
    rw [← String.size_toByteArray, String.toByteArray_extract, ByteArray.size_extract,
      String.size_toByteArray]
    exact congrArg (· - first) (Nat.min_eq_left hlast)
  · cases h

end Checked

end LoxFront

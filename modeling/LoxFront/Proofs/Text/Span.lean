import Mathlib.Data.List.TakeWhile

/-!
# Where a run of characters stops

A run of characters of one kind is cut off a text by `List.takeWhile`. That the run
is found again in a longer text depends on one fact about what follows it:

* `Text.Stops p rest` — the text `rest` does not begin with a character of kind `p`;
* `takeWhile_append_of_stops`, `dropWhile_append_of_stops` — a run of kind `p` before
  such a text is taken whole, and nothing else is taken;
* `prefix_takeWhile` — a run at the front of a text is a part of the run that is taken;
* `eq_of_append_cons_eq` — the first `c` of a text tells apart what stands before and behind it.
-/

namespace LoxFront.Text

variable {p : Char → Bool} {run rest : List Char}

/-- **The end of a run**: `rest` is empty or begins with a character outside `p`. -/
def Stops (p : Char → Bool) (rest : List Char) : Prop :=
  ∀ c ∈ rest.head?, p c = false

@[simp] theorem stops_nil (p : Char → Bool) : Stops p [] := by
  intro c hc
  exact absurd hc (by simp)

@[simp] theorem stops_cons (p : Char → Bool) (c : Char) (cs : List Char) :
    Stops p (c :: cs) ↔ p c = false := by
  unfold Stops
  rw [List.head?_cons]
  exact ⟨fun h => h c rfl, fun h d hd => Option.some.inj hd ▸ h⟩

/-- What is added to a text that is not empty does not matter to a run before it. -/
theorem Stops.append_of_ne_nil (h : Stops p rest) (hne : rest ≠ []) (tail : List Char) :
    Stops p (rest ++ tail) := by
  cases rest with
  | nil => exact absurd rfl hne
  | cons c cs => exact (stops_cons p c (cs ++ tail)).mpr ((stops_cons p c cs).mp h)

theorem Stops.of_append {tail : List Char} (h : Stops p (rest ++ tail)) : Stops p rest := by
  cases rest with
  | nil => exact stops_nil p
  | cons c cs => exact (stops_cons p c cs).mpr ((stops_cons p c (cs ++ tail)).mp h)

/-- A text that continues a run of one character begins with it. -/
theorem exists_cons_of_not_stops {c : Char} (h : ¬ Stops (· == c) rest) :
    ∃ tail, rest = c :: tail := by
  cases rest with
  | nil => exact absurd (stops_nil _) h
  | cons d tail =>
    rw [stops_cons, Bool.not_eq_false, beq_iff_eq] at h
    exact ⟨tail, by rw [h]⟩

/-- A text without the character `c` is a run of the others. -/
theorem forall_bne_of_not_mem {c : Char} (h : c ∉ run) : ∀ d ∈ run, (d != c) = true := by
  intro d hd
  exact bne_iff_ne.mpr fun heq => h (heq ▸ hd)

/-- What `dropWhile` leaves is the end of a run. -/
theorem stops_dropWhile (p : Char → Bool) (cs : List Char) : Stops p (cs.dropWhile p) := by
  intro c hc
  have h := List.head?_dropWhile_not p cs
  rw [Option.mem_def.mp hc] at h
  exact h

theorem takeWhile_eq_nil_of_stops (h : Stops p rest) : rest.takeWhile p = [] := by
  cases rest with
  | nil => rfl
  | cons c cs => rw [List.takeWhile_cons_of_neg (by simpa using h)]

theorem dropWhile_eq_self_of_stops (h : Stops p rest) : rest.dropWhile p = rest := by
  cases rest with
  | nil => rfl
  | cons c cs => rw [List.dropWhile_cons_of_neg (by simpa using h)]

theorem takeWhile_append_of_stops (hrun : ∀ c ∈ run, p c = true) (h : Stops p rest) :
    (run ++ rest).takeWhile p = run := by
  rw [List.takeWhile_append_of_pos hrun, takeWhile_eq_nil_of_stops h, List.append_nil]

theorem dropWhile_append_of_stops (hrun : ∀ c ∈ run, p c = true) (h : Stops p rest) :
    (run ++ rest).dropWhile p = rest := by
  rw [List.dropWhile_append_of_pos hrun, dropWhile_eq_self_of_stops h]

/-- A run of kind `p` at the front of a text lies within the run that is taken. -/
theorem prefix_takeWhile (rest : List Char) (hrun : ∀ c ∈ run, p c = true) :
    run <+: (run ++ rest).takeWhile p := by
  rw [List.takeWhile_append_of_pos hrun]
  exact List.prefix_append _ _

/-- **Up to the first `c`** two texts agree, and behind it. -/
theorem eq_of_append_cons_eq {a b r s : List Char} {c : Char} (ha : c ∉ a) (hb : c ∉ b)
    (h : a ++ c :: r = b ++ c :: s) : a = b ∧ r = s := by
  have hstop : ∀ tail, Stops (· != c) (c :: tail) := fun tail => (stops_cons _ c tail).mpr (by simp)
  have htake := congrArg (List.takeWhile (· != c)) h
  rw [takeWhile_append_of_stops (forall_bne_of_not_mem ha) (hstop r),
    takeWhile_append_of_stops (forall_bne_of_not_mem hb) (hstop s)] at htake
  subst htake
  exact ⟨rfl, (List.cons.inj (List.append_cancel_left h)).2⟩

end LoxFront.Text

import LoxFront.Cursor
import LoxFront.Proofs.Text.Span
import Mathlib.Data.List.Basic

/-!
# How a cursor moves

A cursor stands between two characters, and so does the offset where its segment begins. As
long as it does, no operation on it fails, and each answers what the text ahead says.

* `Cursor.Spans c before read ahead` — the source is `before`, then the text `read` since the
  segment began, then the text `ahead`; and it is not too large to be a text at all;
* `Cursor.moved` — the cursor behind a text that is ahead of it (`Spans.moved`);
* `Spans.peek_eq`, `Spans.skip_eq`, `Spans.eatRun_eq` and so on — one equation for each
  operation, whose right side is a result.
-/

namespace LoxFront

open Text

/-! ### Sizes and slices -/

/-- The size of a text in bytes. -/
def Text.byteSize (cs : List Char) : Nat := (String.ofList cs).utf8ByteSize

theorem byteSize_append (cs ds : List Char) : byteSize (cs ++ ds) = byteSize cs + byteSize ds := by
  unfold byteSize
  rw [String.ofList_append, String.utf8ByteSize_append]

theorem byteSize_singleton (c : Char) : byteSize [c] = c.utf8Size := by
  unfold byteSize
  rw [← String.singleton_eq_ofList, String.utf8ByteSize_singleton]

theorem byteSize_cons (c : Char) (cs : List Char) : byteSize (c :: cs) = c.utf8Size + byteSize cs := by
  rw [← List.singleton_append, byteSize_append, byteSize_singleton]

theorem byteSize_toList (s : String) : byteSize s.toList = s.utf8ByteSize := by
  unfold byteSize
  rw [String.ofList_toList]

/-- Every character takes a byte at least. -/
theorem length_le_byteSize (cs : List Char) : cs.length ≤ byteSize cs := by
  induction cs with
  | nil => exact Nat.le_refl 0
  | cons c cs ih =>
    have hpos := c.utf8Size_pos
    rw [byteSize_cons, List.length_cons]
    omega

/-- **A slice between characters** is the text between them. -/
theorem slice_append (before text after : String) :
    Checked.slice (before ++ text ++ after) before.utf8ByteSize (before ++ text).utf8ByteSize =
      .ok text := by
  have hle : before.utf8ByteSize ≤ (before ++ text).utf8ByteSize := by
    rw [String.utf8ByteSize_append]
    exact Nat.le_add_right _ _
  have hfirst : (⟨before.utf8ByteSize⟩ : String.Pos.Raw).IsValid (before ++ text ++ after) :=
    String.Pos.Raw.isValid_iff_exists_append.mpr ⟨before, text ++ after, String.append_assoc, rfl⟩
  have hlast : (⟨(before ++ text).utf8ByteSize⟩ : String.Pos.Raw).IsValid
      (before ++ text ++ after) :=
    String.Pos.Raw.isValid_iff_exists_append.mpr ⟨before ++ text, after, rfl, rfl⟩
  unfold Checked.slice
  rw [dif_pos ⟨hle, hfirst, hlast⟩]
  obtain ⟨hpos, hcopy⟩ := String.copy_slice_eq_iff_splits.mpr
    ⟨before, after, String.Pos.Splits.mk (p := ⟨_, hfirst⟩) String.append_assoc rfl,
      String.Pos.Splits.mk (p := ⟨_, hlast⟩) rfl rfl⟩
  rw [String.extract_eq_copy_slice _ _ hpos, hcopy]

/-- A slice of a text given by its characters. -/
theorem slice_eq_ok {s : String} {before text after : List Char}
    (h : s.toList = before ++ text ++ after) :
    Checked.slice s (byteSize before) (byteSize (before ++ text)) = .ok (String.ofList text) := by
  have hs : s = String.ofList before ++ String.ofList text ++ String.ofList after := by
    rw [← String.ofList_append, ← String.ofList_append, ← h, String.ofList_toList]
  have hslice := slice_append (String.ofList before) (String.ofList text) (String.ofList after)
  rw [← hs, ← String.ofList_append] at hslice
  exact hslice

namespace Cursor

/-- **Where a cursor stands.** The line stays behind the offset, since a line feed takes a
byte. -/
structure Spans (c : Cursor) (before read ahead : List Char) : Prop where
  source_eq : c.source.toList = before ++ read ++ ahead
  start_eq : c.start = byteSize before
  current_eq : c.current = byteSize (before ++ read)
  size_le : c.source.utf8ByteSize ≤ Checked.maxSize
  line_le : c.line ≤ 1 + c.current

/-- The cursor behind a text that is ahead of it. -/
def moved (c : Cursor) (counting : Bool) (text : List Char) : Cursor :=
  { c with
    current := c.current + byteSize text
    line := c.line + if counting then text.count '\n' else 0 }

@[simp] theorem moved_nil (c : Cursor) (counting : Bool) : c.moved counting [] = c := by
  cases counting <;> rfl

theorem moved_moved (c : Cursor) (counting : Bool) (text more : List Char) :
    (c.moved counting text).moved counting more = c.moved counting (text ++ more) := by
  unfold moved
  rw [byteSize_append, List.count_append, ← Nat.add_assoc]
  cases counting with
  | false => rfl
  | true => simp only [if_true, Nat.add_assoc]

section Spans

variable {c : Cursor} {before read ahead : List Char}

theorem Spans.moved {text : List Char} (h : c.Spans before read (text ++ ahead))
    (counting : Bool) : (c.moved counting text).Spans before (read ++ text) ahead where
  source_eq := by
    change c.source.toList = _
    rw [h.source_eq]
    simp only [List.append_assoc]
  start_eq := h.start_eq
  current_eq := by
    change c.current + byteSize text = _
    rw [h.current_eq, ← byteSize_append, List.append_assoc]
  size_le := h.size_le
  line_le := by
    change c.line + (if counting then text.count '\n' else 0) ≤ 1 + (c.current + byteSize text)
    have hline := h.line_le
    have hcount : text.count '\n' ≤ text.length := List.count_le_length
    have hsize := length_le_byteSize text
    split <;> omega

/-- What is ahead lies within the source. -/
theorem Spans.current_add_le (h : c.Spans before read ahead) :
    c.current + byteSize ahead = c.source.utf8ByteSize := by
  rw [h.current_eq, ← byteSize_append, ← h.source_eq, byteSize_toList]

/-! ### Looking ahead -/

theorem Spans.rest_eq (h : c.Spans before read ahead) : c.rest = .ok (String.ofList ahead) := by
  have hsource : c.source.toList = before ++ read ++ ahead ++ [] := by
    rw [List.append_nil, h.source_eq]
  have hslice := slice_eq_ok hsource
  rw [← h.current_eq, ← h.source_eq, byteSize_toList] at hslice
  exact hslice

theorem Spans.lexeme_eq (h : c.Spans before read ahead) : c.lexeme = .ok (String.ofList read) := by
  have hslice := slice_eq_ok h.source_eq
  rw [← h.current_eq, ← h.start_eq] at hslice
  exact hslice

theorem Spans.peek_eq (h : c.Spans before read ahead) : c.peek = .ok ahead.head? := by
  unfold peek
  rw [h.rest_eq]
  change Except.ok (String.ofList ahead).toList.head? = _
  rw [String.toList_ofList]

theorem Spans.peekNext_eq (h : c.Spans before read ahead) : c.peekNext = .ok ahead[1]? := by
  unfold peekNext
  rw [h.rest_eq]
  change Except.ok (String.ofList ahead).toList[1]? = _
  rw [String.toList_ofList]

theorem Spans.isAtEnd_iff (h : c.Spans before read ahead) : c.isAtEnd = true ↔ ahead = [] := by
  rw [← eq_none_iff_of_peek h.peek_eq, List.head?_eq_none_iff]

/-! ### Moving -/

/-- The offset behind the next character fits a machine word. -/
theorem Spans.current_add_le_maxWord {ch : Char} (h : c.Spans before read (ch :: ahead)) :
    c.current + ch.utf8Size ≤ Checked.maxWord := by
  have hsum := h.current_add_le
  have hsize := h.size_le
  rw [← List.singleton_append, byteSize_append, byteSize_singleton] at hsum
  unfold Checked.maxSize at hsize
  unfold Checked.maxWord
  omega

theorem skip_of_le {bytes : Nat} (h : c.current + bytes ≤ Checked.maxWord) :
    c.skip bytes = .ok { c with current := c.current + bytes } := by
  unfold skip
  rw [Checked.add_eq_ok_iff.mpr ⟨h, rfl⟩]
  rfl

theorem Spans.skip_eq {ch : Char} (h : c.Spans before read (ch :: ahead)) :
    c.skip ch.utf8Size = .ok (c.moved false [ch]) := by
  rw [skip_of_le h.current_add_le_maxWord, Cursor.moved, byteSize_singleton]
  rfl

/-- The line after the next character fits a machine word. -/
theorem Spans.line_add_le_maxWord {ch : Char} (h : c.Spans before read (ch :: ahead)) :
    c.line + 1 ≤ Checked.maxWord := by
  have hsum := h.current_add_le
  have hline := h.line_le
  have hsize := h.size_le
  unfold Checked.maxSize at hsize
  unfold Checked.maxWord
  omega

theorem nextLine_of_le (h : c.line + 1 ≤ Checked.maxWord) :
    c.nextLine = .ok { c with line := c.line + 1 } := by
  unfold nextLine
  rw [Checked.add_eq_ok_iff.mpr ⟨h, rfl⟩]
  rfl

theorem Spans.advance_eq {ch : Char} (h : c.Spans before read (ch :: ahead)) :
    c.advance = .ok (some ch, c.moved false [ch]) := by
  unfold advance
  rw [h.peek_eq]
  change (c.skip ch.utf8Size >>= fun d => Except.ok (some ch, d)) = _
  rw [h.skip_eq]
  rfl

theorem Spans.eat_eq_of_head {ch : Char} (h : c.Spans before read (ch :: ahead)) :
    c.eat ch = .ok (true, c.moved false [ch]) := by
  unfold eat
  rw [h.peek_eq]
  change (if some ch = some ch then c.skip ch.utf8Size >>= fun d => Except.ok (true, d)
    else Except.ok (false, c)) = _
  rw [if_pos rfl, h.skip_eq]
  rfl

theorem Spans.eat_eq_of_stops {ch : Char} (h : c.Spans before read ahead)
    (hstops : Stops (· == ch) ahead) : c.eat ch = .ok (false, c) := by
  have hhead : ahead.head? ≠ some ch := by
    intro hch
    exact absurd (beq_self_eq_true ch) (Bool.eq_false_iff.mp (hstops ch hch))
  unfold eat
  rw [h.peek_eq]
  exact if_neg hhead

theorem Spans.pass_eq {ch : Char} (h : c.Spans before read (ch :: ahead)) (counting : Bool) :
    c.pass counting ch = .ok (c.moved counting [ch]) := by
  unfold pass Cursor.moved
  rw [byteSize_singleton, List.count_singleton]
  by_cases hfeed : (counting && ch == '\n') = true
  · obtain ⟨hcounting, hch⟩ := Bool.and_eq_true_iff.mp hfeed
    rw [if_pos hfeed, if_pos hcounting, if_pos hch, nextLine_of_le h.line_add_le_maxWord]
    exact skip_of_le (c := { c with line := c.line + 1 }) h.current_add_le_maxWord
  · have hline : (if counting then if ch == '\n' then 1 else 0 else 0) = 0 := by
      rw [Bool.and_eq_true_iff, not_and] at hfeed
      split
      · next hcounting => exact if_neg (hfeed hcounting)
      · rfl
    rw [if_neg hfeed, hline]
    exact skip_of_le h.current_add_le_maxWord

/-- **A run is moved over** to its end. -/
theorem Spans.eatRun_eq (h : c.Spans before read ahead) (p : Char → Bool) (counting : Bool) :
    c.eatRun p counting = .ok (c.moved counting (ahead.takeWhile p)) := by
  induction ahead generalizing c read with
  | nil =>
    rw [eatRun, h.peek_eq, List.takeWhile_nil, moved_nil]
    rfl
  | cons ch ahead ih =>
    have hnext : (c.moved counting [ch]).Spans before (read ++ [ch]) ahead := h.moved counting
    rw [eatRun, h.peek_eq]
    change (if p ch then _ else _) = _
    by_cases hp : p ch = true
    · rw [if_pos hp, h.pass_eq, List.takeWhile_cons_of_pos hp]
      change (c.moved counting [ch]).eatRun p counting = _
      rw [ih hnext, moved_moved]
      rfl
    · rw [if_neg hp, List.takeWhile_cons_of_neg hp, moved_nil]

end Spans

end Cursor

end LoxFront

import LoxFront.Proofs.Cursor.Segments
import LoxFront.Proofs.Item.Parts
import LoxFront.Proofs.Lexer.Stream
import Mathlib.Data.List.Forall2

/-!
# Stray characters are isolated

A character that begins nothing is reported and takes nothing else with it: with a blank in its
place the scan finds the same tokens, on the same lines, and the same other faults.

* `strayOffsets` — where the stray characters of a source stand, by the calls that report them;
  `cleared` — the source with a blank at each of these byte offsets;
* `Segment.cleared` — a segment with a blank for a stray character, and any other as it is;
  `toList_cleared` — clearing a source is clearing its segments;
* `Blanked` — one character stands for another: the same, or a blank for one that is no line feed.
  A boundary between segments is still one when the text after it is blanked
  (`Segment.EndsBefore.blanked`), so cleared segments are cut as they stand (`segments_cleared`);
* `items_cleared` — from the item stream the reports of stray characters are missing, and nothing
  else.

The main statement is `scan_cleared`.
-/

namespace LoxFront

open Text

/-! ### Reports of stray characters -/

/-- The fault of a character that begins nothing. -/
def Fault.isStray : Fault → Bool
  | unexpectedCharacter _ => true
  | _ => false

/-- The report of a character that begins nothing. -/
def Item.isStray : Item → Bool
  | token _ => false
  | fault d _ => d.fault.isStray

/-- **Where a call finds a stray character**: if it reports one, the offset where the segment of the
report begins. -/
def Lexer.strayOffset? (l : Lexer) : Option Nat :=
  if l.next?.1.any Item.isStray then some l.next?.2.start else none

/-- Where `n` calls in a row find stray characters. -/
def Lexer.strayOffsets (l : Lexer) (n : Nat) : List Nat :=
  (List.range n).filterMap fun k => (l.after k).strayOffset?

/-- **Where the stray characters of a source stand**, by the calls that make a scan. -/
def strayOffsets (source : String) : List Nat :=
  (Lexer.ofSource source).strayOffsets (items source).length

/-- A text that begins at `offset`, with a blank for each character at one of the offsets. -/
def Text.blankAt (offsets : List Nat) (offset : Nat) : List Char → List Char
  | [] => []
  | c :: cs =>
    (if offset ∈ offsets then ' ' else c) :: blankAt offsets (offset + c.utf8Size) cs

/-- **A source with a blank for each stray character.** -/
def cleared (source : String) : String :=
  String.ofList (blankAt (strayOffsets source) 0 source.toList)

/-! ### Blanks at offsets -/

theorem blankAt_append (offsets : List Nat) (offset : Nat) (xs ys : List Char) :
    blankAt offsets offset (xs ++ ys) =
      blankAt offsets offset xs ++ blankAt offsets (offset + byteSize xs) ys := by
  induction xs generalizing offset with
  | nil => rfl
  | cons c cs ih =>
    rw [List.cons_append, blankAt, blankAt, ih, byteSize_cons, Nat.add_assoc]
    rfl

/-- Where no offset lies within a text, it stays. -/
theorem blankAt_eq_self {offsets : List Nat} {offset : Nat} {cs : List Char}
    (h : ∀ n ∈ offsets, n < offset ∨ offset + byteSize cs ≤ n) :
    blankAt offsets offset cs = cs := by
  induction cs generalizing offset with
  | nil => rfl
  | cons c cs ih =>
    have hpos := c.utf8Size_pos
    rw [byteSize_cons] at h
    -- The first character stands at `offset`, the others behind it.
    have hself : offset ∉ offsets := fun hmem => by
      have hout := h offset hmem
      omega
    have hlater : ∀ n ∈ offsets,
        n < offset + c.utf8Size ∨ offset + c.utf8Size + byteSize cs ≤ n := by
      intro n hn
      have hout := h n hn
      omega
    rw [blankAt, if_neg hself, ih hlater]

/-! ### Clearing segments -/

namespace Segment

def isStray : Segment → Bool
  | stray _ => true
  | _ => false

/-- **A segment without its stray character.** -/
def cleared : Segment → Segment
  | stray _ => blank ' '
  | s => s

theorem cleared_eq_self {s : Segment} (h : s.isStray = false) : s.cleared = s := by
  cases s with
  | stray c => cases h
  | _ => rfl

theorem eq_stray_of_isStray {s : Segment} (h : s.isStray = true) : ∃ c, s = stray c := by
  cases s with
  | stray c => exact ⟨c, rfl⟩
  | _ => cases h

theorem byteSize_text_pos_of_isStray {s : Segment} (h : s.isStray = true) :
    0 < byteSize s.text := by
  obtain ⟨c, rfl⟩ := eq_stray_of_isStray h
  show 0 < byteSize [c]
  rw [byteSize_singleton]
  exact c.utf8Size_pos

/-- The item of a stray character, and no other, is the report of one. -/
theorem any_isStray_item? (line : Nat) (s : Segment) :
    (s.item? line).any Item.isStray = s.isStray := by
  cases s <;> rfl

/-- **Within one segment** there is an offset at most, that of a stray character. -/
theorem blankAt_text {offsets : List Nat} {offset : Nat} {s : Segment}
    (h : ∀ n, offset ≤ n → n < offset + byteSize s.text →
      (n ∈ offsets ↔ s.isStray = true ∧ n = offset)) :
    blankAt offsets offset s.text = s.cleared.text := by
  by_cases hs : s.isStray = true
  · have hpos := byteSize_text_pos_of_isStray hs
    have hhere : offset ∈ offsets :=
      (h offset (Nat.le_refl _) (Nat.lt_add_of_pos_right hpos)).mpr ⟨hs, rfl⟩
    obtain ⟨c, rfl⟩ := eq_stray_of_isStray hs
    show blankAt offsets offset [c] = [' ']
    rw [blankAt, if_pos hhere]
    rfl
  · rw [cleared_eq_self (Bool.eq_false_iff.mpr hs)]
    refine blankAt_eq_self fun n hn => ?_
    by_contra hwithin
    exact hs ((h n (by omega) (by omega)).mp hn).1

end Segment

/-- Where the stray characters of segments stand, the first of which begins at `offset`. -/
def straysFrom (offset : Nat) : List Segment → List Nat
  | [] => []
  | s :: segs => (if s.isStray then [offset] else []) ++ straysFrom (offset + byteSize s.text) segs

theorem mem_straysFrom_cons {offset n : Nat} {s : Segment} {segs : List Segment} :
    n ∈ straysFrom offset (s :: segs) ↔
      s.isStray = true ∧ n = offset ∨ n ∈ straysFrom (offset + byteSize s.text) segs := by
  rw [straysFrom, List.mem_append]
  cases s.isStray <;> simp

theorem le_of_mem_straysFrom {offset n : Nat} {segs : List Segment}
    (h : n ∈ straysFrom offset segs) : offset ≤ n := by
  induction segs generalizing offset with
  | nil => cases h
  | cons s segs ih =>
    obtain ⟨-, rfl⟩ | hlater := mem_straysFrom_cons.mp h
    · exact Nat.le_refl n
    · exact Nat.le_trans (Nat.le_add_right _ _) (ih hlater)

/-- **Blanks where the stray characters stand** clear the segments. -/
theorem blankAt_flatMap_text {offsets : List Nat} {offset : Nat} {segs : List Segment}
    (h : ∀ n, offset ≤ n → (n ∈ offsets ↔ n ∈ straysFrom offset segs)) :
    blankAt offsets offset (segs.flatMap Segment.text) =
      (segs.map Segment.cleared).flatMap Segment.text := by
  induction segs generalizing offset with
  | nil => rfl
  | cons s segs ih =>
    have hhere : ∀ n, offset ≤ n → n < offset + byteSize s.text →
        (n ∈ offsets ↔ s.isStray = true ∧ n = offset) := by
      intro n hle hlt
      rw [h n hle, mem_straysFrom_cons]
      exact or_iff_left fun hlater => absurd (le_of_mem_straysFrom hlater) (Nat.not_le.mpr hlt)
    have hlater : ∀ n, offset + byteSize s.text ≤ n →
        (n ∈ offsets ↔ n ∈ straysFrom (offset + byteSize s.text) segs) := by
      intro n hle
      rw [h n (Nat.le_trans (Nat.le_add_right _ _) hle), mem_straysFrom_cons]
      refine or_iff_right fun hstray => ?_
      have hpos := Segment.byteSize_text_pos_of_isStray hstray.1
      omega
    rw [List.flatMap_cons, List.map_cons, List.flatMap_cons, blankAt_append,
      Segment.blankAt_text hhere, ih hlater]

/-! ### The calls of a scan -/

namespace Lexer

theorem strayOffsets_add_one (l : Lexer) (n : Nat) :
    l.strayOffsets (n + 1) = l.strayOffset?.toList ++ l.next?.2.strayOffsets n := by
  unfold strayOffsets
  rw [List.range_succ_eq_map, List.filterMap_cons, List.filterMap_map]
  simp only [Function.comp_def, Nat.succ_eq_add_one, after_add_one, after_zero]
  cases l.strayOffset? <;> rfl

/-- Lexers that answer the same find the same. -/
theorem strayOffsets_congr {l l' : Lexer} (h : l.next? = l'.next?) (n : Nat) :
    l.strayOffsets n = l'.strayOffsets n := by
  cases n with
  | zero => rfl
  | succ n => rw [strayOffsets_add_one, strayOffsets_add_one, strayOffset?, strayOffset?, h]

/-- **The calls find the stray characters** where their segments stand. -/
theorem strayOffsets_eq (l : Lexer) {cs : List Char} (hdone : l.done = false)
    (hrest : l.rest = cs) : l.strayOffsets l.pending.length = straysFrom l.current (segments cs) := by
  -- By induction on the segments still to come, each of which is answered or skipped.
  induction cs using segments.induct generalizing l with
  | case1 =>
    -- The one call that is left is answered by the mark of the end.
    have hnone : l.strayOffset? = none := by
      rw [strayOffset?, next?_of_nil hdone hrest]
      rfl
    have hpending : l.pending = [.token (.eof l.line)] := by
      rw [pending, hdone, hrest, segments_nil]
      rfl
    rw [hpending, List.length_singleton, strayOffsets_add_one, hnone, segments_nil]
    rfl
  | case2 c cs cut ih =>
    have hnext := next?_of_cons hdone hrest
    have hpending := pending_of_cons hdone hrest
    have hlater := ih (l.advance cut.1 cut.2) hdone rfl
    have hstray := Segment.any_isStray_item? l.line cut.1
    rw [segments_cons, straysFrom, hpending, List.length_append]
    cases hitem : cut.1.item? l.line with
    | some item =>
      rw [hitem] at hnext hstray
      have hhere : l.strayOffset? = if cut.1.isStray then some l.current else none := by
        rw [← hstray, strayOffset?, hnext]
        rfl
      rw [Option.toList_some, List.length_singleton, Nat.add_comm, strayOffsets_add_one, hhere,
        hnext]
      refine congrArg₂ (· ++ ·) ?_ hlater
      cases cut.1.isStray <;> rfl
    | none =>
      -- The segment is skipped, so the call does what a call behind it does.
      rw [hitem] at hnext hstray
      rw [← hstray, Option.toList_none, List.length_nil, Nat.zero_add, strayOffsets_congr hnext]
      exact hlater

end Lexer

/-- **Clearing a source is clearing its segments.** -/
theorem toList_cleared (source : String) :
    (cleared source).toList =
      ((segments source.toList).map Segment.cleared).flatMap Segment.text := by
  have hoffsets : strayOffsets source = straysFrom 0 (segments source.toList) :=
    Lexer.strayOffsets_eq _ rfl rfl
  have hblank := blankAt_flatMap_text (fun n (_ : 0 ≤ n) => iff_of_eq (congrArg (n ∈ ·) hoffsets))
  rw [flatMap_text_segments] at hblank
  rw [cleared, String.toList_ofList, hblank]

/-! ### Boundaries -/

/-- **A character or a blank for it**, but none for a line feed. -/
def Blanked (c d : Char) : Prop := d = c ∨ c ≠ '\n' ∧ d = ' '

section Blanked

variable {rest rest' : List Char} (h : List.Forall₂ Blanked rest rest')

include h

/-- What is blanked breaks off at the first blank. -/
theorem Segment.breaksOff_of_blanked : BreaksOff rest rest' := by
  induction h with
  | nil => exact BreaksOff.nil []
  | @cons c d cs ds hcd _ ih =>
    obtain rfl | ⟨-, rfl⟩ := hcd
    · exact BreaksOff.cons d ih
    · exact BreaksOff.blank rfl (c :: cs) ds

/-- **A boundary stays** when what follows is blanked. -/
theorem Segment.EndsBefore.blanked {s : Segment} (hs : s.EndsBefore rest) : s.EndsBefore rest' := by
  cases s with
  | comment body =>
    -- A blank would continue a comment, but the line feed that ends it is no stray character.
    cases h with
    | nil => exact stops_nil _
    | @cons c d cs ds hcd _ =>
      obtain rfl := eq_lineFeed_of_endsBefore_comment hs
      obtain rfl | ⟨hne, -⟩ := hcd
      · exact (stops_cons _ _ ds).mpr rfl
      · exact absurd rfl hne
  | openString body =>
    obtain rfl : rest = [] := hs
    cases h
    rfl
  | _ => exact hs.breaksOff (breaksOff_of_blanked h) (by simp) (by simp)

end Blanked

theorem Segment.endsBefore_cleared {s : Segment} {rest : List Char} (h : s.EndsBefore rest) :
    s.cleared.EndsBefore rest := by
  cases s with
  | stray c => trivial
  | _ => exact h

theorem Segment.WellFormed.cleared {s : Segment} (h : s.WellFormed) : s.cleared.WellFormed := by
  cases s with
  | stray c => rfl
  | _ => exact h

theorem forall₂_blanked_cleared {segs : List Segment} (h : ∀ s ∈ segs, s.WellFormed) :
    List.Forall₂ Blanked (segs.flatMap Segment.text)
      ((segs.map Segment.cleared).flatMap Segment.text) := by
  induction segs with
  | nil => exact List.Forall₂.nil
  | cons s segs ih =>
    obtain ⟨hs, hsegs⟩ := List.forall_mem_cons.mp h
    rw [List.flatMap_cons, List.map_cons, List.flatMap_cons]
    refine List.rel_append ?_ (ih hsegs)
    cases s with
    | stray c => exact List.Forall₂.cons (Or.inr ⟨ne_lineFeed_of_not_isBlank hs.1, rfl⟩) .nil
    | _ => exact List.forall₂_same.mpr fun c _ => Or.inl rfl

/-- **Cleared segments are separated** if they were so before. -/
theorem Separated.cleared {segs : List Segment} (h : Separated [] segs) :
    Separated [] (segs.map Segment.cleared) := by
  induction segs with
  | nil => trivial
  | cons s segs ih =>
    have hblanked := forall₂_blanked_cleared h.2.2.wellFormed
    obtain ⟨hs, he, hsegs⟩ := h
    rw [List.append_nil] at he
    refine ⟨hs.cleared, ?_, ih hsegs⟩
    rw [List.append_nil]
    -- Both the segment and the text behind it are cleared.
    exact (Segment.endsBefore_cleared he).blanked hblanked

/-- **A cleared source is cut as before.** -/
theorem segments_cleared (source : String) :
    segments (cleared source).toList = (segments source.toList).map Segment.cleared := by
  rw [toList_cleared]
  exact (separated_segments source.toList).cleared.segments_flatMap_text

/-! ### Items -/

theorem Segment.WellFormed.lineFeeds_cleared {s : Segment} (h : s.WellFormed) :
    s.cleared.lineFeeds = s.lineFeeds := by
  cases s with
  | stray c =>
    have hc : '\n' ∉ [c] := by
      rw [List.mem_singleton]
      exact (ne_lineFeed_of_not_isBlank h.1).symm
    show 0 = [c].count '\n'
    rw [List.count_eq_zero_of_not_mem hc]
  | _ => rfl

/-- **One segment**: its item, unless that is the report of a stray character. -/
theorem Segment.item?_cleared (line : Nat) (s : Segment) :
    s.cleared.item? line = (s.item? line).filter fun item => !item.isStray := by
  cases s <;> rfl

theorem itemsFrom_cleared {segs : List Segment} (h : ∀ s ∈ segs, s.WellFormed) (line : Nat) :
    itemsFrom line (segs.map Segment.cleared) =
      (itemsFrom line segs).filter fun item => !item.isStray := by
  induction segs generalizing line with
  | nil => rfl
  | cons s segs ih =>
    obtain ⟨hs, hsegs⟩ := List.forall_mem_cons.mp h
    rw [List.map_cons, itemsFrom_cons, itemsFrom_cons, hs.lineFeeds_cleared, ih hsegs,
      List.filter_append, Segment.item?_cleared, Option.toList_filter]

/-- **The item stream of a cleared source** lacks the reports of stray characters. -/
theorem items_cleared (source : String) :
    items (cleared source) = (items source).filter fun item => !item.isStray := by
  unfold items
  rw [segments_cleared]
  exact itemsFrom_cleared (fun _ hs => wellFormed_of_mem_segments hs) 1

/-! ### The scan -/

/-- **Stray characters are isolated.** With a blank in the place of every character that is reported
as unexpected a source has the same tokens, on the same lines, and the same diagnostics but for
these reports. Every segment that is no stray character stays as it was, the strings and the
comments among them. -/
theorem scan_cleared (source : String) :
    (scan (cleared source)).tokens = (scan source).tokens ∧
      (scan (cleared source)).diagnostics =
        (scan source).diagnostics.filter (fun d => !d.fault.isStray) ∧
      segments (cleared source).toList = (segments source.toList).map Segment.cleared := by
  refine ⟨?_, ?_, segments_cleared source⟩
  · rw [scan_tokens, scan_tokens, items_cleared, List.filterMap_filter]
    apply List.filterMap_congr
    intro item _
    cases item with
    | token t => rfl
    | fault d lexeme => cases d.fault.isStray <;> simp [Item.isStray]
  · rw [scan_diagnostics, scan_diagnostics, items_cleared, List.filterMap_filter,
      List.filter_filterMap]
    apply List.filterMap_congr
    intro item _
    cases item with
    | token t => rfl
    | fault d lexeme => cases hd : d.fault.isStray <;> simp [Item.isStray, Option.filter, hd]

/-- Stray characters behind a word and between a point and a digit. In a string and in a comment
they are none. -/
example : cleared "caf€ 1.@2 \"€\" // @" = "caf  1. 2 \"€\" // @" := by
  decide +kernel

end LoxFront

import LoxFront.Item
import LoxFront.Proofs.Segment.Modes
import LoxFront.Scan

/-!
# Comments are transparent

A source without its comments has the same scan: the same tokens and the same diagnostics, on the
same lines.

* `uncommented` — a source without its comments, by a pass that knows nothing of tokens;
* `segments_uncomment` — its segments are those of the source but for the comments. What is taken
  out stands before a line feed or at the end, and neither of these continues the segment before
  it;
* `items_uncommented` — its items are those of the source, since a comment yields nothing and ends
  no line.
-/

namespace LoxFront

open Text Segment

/-- **A source without its comments.** A comment runs from two slashes outside strings and other
comments up to the next line feed, which stays, or to the end. -/
def uncommented (source : String) : String := String.ofList (Mode.code.uncomment source.toList)

/-- **A segment before a comment** ends without it just as well. -/
theorem Segment.EndsBefore.uncomment {s : Segment} {rest : List Char} (h : s.EndsBefore rest)
    (hmode : s.mode ≠ .comment) : s.EndsBefore (Mode.code.uncomment rest) := by
  cases s with
  | comment body => exact absurd rfl hmode
  | openString body =>
    -- Nothing stands behind an open string, and no comment either.
    obtain rfl : rest = [] := h
    rfl
  | _ => exact h.breaksOff (breaksOff_uncomment .code rest) (by simp) (by simp)

/-- **The segments of a text without comments.** -/
theorem segments_uncomment (cs : List Char) :
    segments (Mode.code.uncomment cs) = (segments cs).filter fun s => s.mode ≠ .comment := by
  induction cs using segments.induct with
  | case1 =>
    rw [segments_nil]
    exact segments_nil
  | case2 c cs cut ih =>
    have hs := wellFormed_first c cs
    have he := endsBefore_first c cs
    have htext := uncomment_text_append hs he
    rw [text_first] at htext
    rw [htext, segments_cons]
    by_cases hmode : (first c cs).1.mode = .comment
    · -- A comment leaves nothing behind.
      have hkept : (first c cs).1.kept = [] := if_pos hmode
      rw [hkept, List.nil_append, List.filter_cons_of_neg (by simp [hmode])]
      exact ih
    · -- Any other segment is cut off again, whatever is taken out behind it.
      have hkept : (first c cs).1.kept = (first c cs).1.text := if_neg hmode
      rw [hkept, segments_text_append hs (he.uncomment hmode),
        List.filter_cons_of_pos (by simp [hmode])]
      exact congrArg _ ih

/-- Comments yield nothing and end no line. -/
theorem itemsFrom_filter_comment {segs : List Segment} (h : ∀ s ∈ segs, s.WellFormed)
    (line : Nat) :
    itemsFrom line (segs.filter fun s => s.mode ≠ .comment) = itemsFrom line segs := by
  induction segs generalizing line with
  | nil => rfl
  | cons s segs ih =>
    have hs : s.WellFormed := h s List.mem_cons_self
    have hsegs : ∀ t ∈ segs, t.WellFormed := by
      intro t ht
      exact h t (List.mem_cons_of_mem s ht)
    by_cases hmode : s.mode = .comment
    · obtain ⟨body, rfl⟩ := exists_eq_comment hmode
      rw [List.filter_cons_of_neg (by simp [hmode]), itemsFrom_cons, lineFeeds_comment hs,
        ih hsegs]
      rfl
    · rw [List.filter_cons_of_pos (by simp [hmode]), itemsFrom_cons, itemsFrom_cons, ih hsegs]

theorem segments_uncommented (source : String) :
    segments (uncommented source).toList =
      (segments source.toList).filter fun s => s.mode ≠ .comment := by
  rw [uncommented, String.toList_ofList, segments_uncomment]

theorem items_uncommented (source : String) : items (uncommented source) = items source := by
  have hsegs : ∀ s ∈ segments source.toList, s.WellFormed := by
    intro s hs
    exact wellFormed_of_mem_segments hs
  calc items (uncommented source)
      = itemsFrom 1 ((segments source.toList).filter fun s => s.mode ≠ .comment) := by
        rw [items, segments_uncommented]
    _ = items source := itemsFrom_filter_comment hsegs 1

/-- **Comments are transparent.** A source without its comments has the tokens and the diagnostics
of the source, with the same lines. All its segments but the comments stay as they were. -/
theorem scan_uncommented (source : String) :
    scan (uncommented source) = scan source ∧
      segments (uncommented source).toList =
        (segments source.toList).filter fun s => s.mode ≠ .comment := by
  refine ⟨?_, segments_uncommented source⟩
  unfold scan
  rw [items_uncommented]

/-- Slashes in a string are no comment, and the slash before two others is not part of one. -/
example : uncommented "\"//\" 1 /2. // \"\n/ //" = "\"//\" 1 /2. \n/ " := by
  decide +kernel

end LoxFront

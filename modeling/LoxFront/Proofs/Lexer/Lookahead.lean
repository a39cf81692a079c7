import LoxFront.Proofs.Item.Parts
import LoxFront.Proofs.Lexer.Stream
import LoxFront.Proofs.Segment.Boundary

/-!
# Two characters of lookahead

How a source goes on does not matter to a lexer that leaves two characters of it unread: it has
looked at nothing behind them.

* `Segment.first_append` — a cut that leaves two characters is made in the same place in a longer
  text;
* `Lexer.continued` — a lexer whose source goes on with more text;
* `Yields.continued` — what a call does that leaves two characters, it does in the continued source,
  too, and `after_continued` — so do all the calls up to it.

The main statement, `answers_append`, is about the first items of a source and of a longer one. An
open string has no part in it: it takes the whole source, so it leaves nothing.
-/

namespace LoxFront

/-- **A cut that leaves two characters** does not depend on what comes after them. -/
theorem Segment.first_append {c : Char} {cs : List Char} (h : 2 ≤ (first c cs).2.length)
    (more : List Char) :
    first c (cs ++ more) = ((first c cs).1, (first c cs).2 ++ more) := by
  have htext := text_first c cs
  have hends := endsBefore_first c cs
  have hshape := wellFormed_first c cs
  generalize first c cs = cut at h htext hends hshape ⊢
  obtain ⟨s, rest⟩ := cut
  obtain ⟨d, e, tail, rfl⟩ : ∃ d e tail, rest = d :: e :: tail := by
    match rest, h with
    | d :: e :: tail, _ => exact ⟨d, e, tail, rfl⟩
  -- With two characters left there is no single point that more text could turn into a fraction.
  have hmore : s.EndsBefore (d :: e :: tail ++ more) :=
    hends.append_cons fun hnil => absurd hnil (List.cons_ne_nil e tail)
  refine first_eq hshape hmore ?_
  rw [← List.append_assoc, htext, List.cons_append]

namespace Lexer

/-- **The same lexer in a source that goes on** with more text. -/
def continued (l : Lexer) (more : String) : Lexer :=
  { l with source := l.source ++ more, rest := l.rest ++ more.toList }

theorem ofSource_append (source more : String) :
    ofSource (source ++ more) = (ofSource source).continued more := by
  unfold ofSource continued
  rw [String.toList_append]

/-! ### What a call leaves -/

theorem length_rest_advance_le {l : Lexer} {c : Char} {cs : List Char} (hrest : l.rest = c :: cs) :
    (l.advance (Segment.first c cs).1 (Segment.first c cs).2).rest.length ≤ l.rest.length := by
  rw [hrest]
  exact (Segment.length_rest_first c cs).le

/-- A call leaves no more than it found. -/
theorem Yields.length_rest_le {l l' : Lexer} {answer : Option Item} (h : Yields l answer l') :
    l'.rest.length ≤ l.rest.length := by
  induction h with
  | exhausted _ => exact le_rfl
  | eof _ _ => exact le_rfl
  | item _ hrest _ => exact length_rest_advance_le hrest
  | skip _ hrest _ _ ih => exact ih.trans (length_rest_advance_le hrest)

theorem length_rest_after_le (l : Lexer) {m n : Nat} (h : m ≤ n) :
    (l.after n).rest.length ≤ (l.after m).rest.length := by
  induction h with
  | refl => exact le_rfl
  | step _ ih =>
    rw [after_succ]
    exact (yields_next? _).length_rest_le.trans ih

/-- Only at the end of the source a call yields the mark of the end. -/
theorem Yields.rest_eq_nil {l l' : Lexer} {answer : Option Item} (h : Yields l answer l')
    (hl : l.done = true → l.rest = []) : l'.done = true → l'.rest = [] := by
  induction h with
  | exhausted _ => exact hl
  | eof _ hrest => exact fun _ => hrest
  | item hdone _ _ =>
    intro hdone'
    exact absurd (hdone.symm.trans hdone') Bool.false_ne_true
  | skip hdone _ _ _ ih =>
    refine ih fun hdone' => ?_
    exact absurd (hdone.symm.trans hdone') Bool.false_ne_true

theorem done_after_eq_false {source : String} {n : Nat}
    (h : ((ofSource source).after n).rest ≠ []) : ((ofSource source).after n).done = false := by
  have hdone : ((ofSource source).after n).done = true → ((ofSource source).after n).rest = [] := by
    clear h
    induction n with
    | zero => exact fun hdone => absurd hdone Bool.false_ne_true
    | succ n ih =>
      rw [after_succ]
      exact (yields_next? _).rest_eq_nil ih
  rw [← Bool.not_eq_true]
  exact fun h' => h (hdone h')

/-! ### Calls in a continued source -/

section Continued

variable {l : Lexer} {c : Char} {cs : List Char}

theorem rest_continued (hrest : l.rest = c :: cs) (more : String) :
    (l.continued more).rest = c :: (cs ++ more.toList) := by
  change l.rest ++ more.toList = _
  rw [hrest, List.cons_append]

/-- Moving past the first segment, where that leaves two characters. -/
theorem advance_continued (l : Lexer) (hcut : 2 ≤ (Segment.first c cs).2.length) (more : String) :
    (l.continued more).advance (Segment.first c (cs ++ more.toList)).1
        (Segment.first c (cs ++ more.toList)).2 =
      (l.advance (Segment.first c cs).1 (Segment.first c cs).2).continued more := by
  rw [Segment.first_append hcut]
  rfl

/-- **One call**: if it leaves two characters, it does the same in the continued source. -/
theorem Yields.continued {l' : Lexer} {answer : Option Item} (h : Yields l answer l')
    (hleaves : 2 ≤ l'.rest.length) (more : String) :
    Yields (l.continued more) answer (l'.continued more) := by
  induction h with
  | exhausted hdone => exact Yields.exhausted hdone
  | @eof l _ hrest =>
    -- At the end of the source nothing is left.
    change 2 ≤ l.rest.length at hleaves
    rw [hrest] at hleaves
    exact absurd hleaves (by simp)
  | @item l c cs item hdone hrest hitem =>
    have hitem' : (Segment.first c (cs ++ more.toList)).1.item? l.line = some item := by
      rw [Segment.first_append hleaves]
      exact hitem
    rw [← l.advance_continued hleaves]
    exact Yields.item hdone (rest_continued hrest more) hitem'
  | @skip l l' c cs answer hdone hrest hitem hyields ih =>
    -- The segment that is skipped leaves what the rest of the call leaves, and more.
    have hcut : 2 ≤ (Segment.first c cs).2.length := hleaves.trans hyields.length_rest_le
    have hitem' : (Segment.first c (cs ++ more.toList)).1.item? l.line = none := by
      rw [Segment.first_append hcut]
      exact hitem
    have hlater := ih hleaves
    rw [← l.advance_continued hcut] at hlater
    exact Yields.skip hdone (rest_continued hrest more) hitem' hlater

end Continued

theorem next?_continued {l : Lexer} (h : 2 ≤ l.next?.2.rest.length) (more : String) :
    (l.continued more).next? = (l.next?.1, l.next?.2.continued more) :=
  ((yields_next? l).continued h more).next?_eq

/-- **All the calls** up to one that leaves two characters do the same in the continued source. -/
theorem after_continued {l : Lexer} {n : Nat} (h : 2 ≤ (l.after n).rest.length) (more : String) :
    (l.continued more).after n = (l.after n).continued more := by
  induction n with
  | zero => rfl
  | succ n ih =>
    have hbefore : 2 ≤ (l.after n).rest.length := h.trans (l.length_rest_after_le n.le_succ)
    rw [after_succ] at h ⊢
    rw [ih hbefore, next?_continued h, after_succ]

theorem answers_continued {l : Lexer} {n : Nat} (h : 2 ≤ (l.after n).rest.length)
    (more : String) : (l.continued more).answers n = l.answers n := by
  unfold answers
  refine List.map_congr_left fun k hk => ?_
  have hle : k + 1 ≤ n := List.mem_range.mp hk
  have hcall : 2 ≤ (l.after (k + 1)).rest.length := h.trans (l.length_rest_after_le hle)
  have hbefore : 2 ≤ (l.after k).rest.length := hcall.trans (l.length_rest_after_le k.le_succ)
  rw [after_succ] at hcall
  rw [after_continued hbefore, next?_continued hcall]

end Lexer

/-- **Two characters of lookahead suffice.** If the lexer of a source leaves two characters unread
after `k` calls, then all of these have answered items, and on any longer source that begins with
it they answer the same. -/
theorem answers_append {source : String} {k : Nat}
    (h : 2 ≤ ((Lexer.ofSource source).after k).rest.length) (more : String) :
    none ∉ (Lexer.ofSource source).answers k ∧
      (Lexer.ofSource (source ++ more)).answers k = (Lexer.ofSource source).answers k := by
  refine ⟨?_, ?_⟩
  · -- Items are still to come after the calls, so there were enough of them.
    have hrest : ((Lexer.ofSource source).after k).rest ≠ [] := by
      intro hnil
      rw [hnil] at h
      exact absurd h (by simp)
    have hpending : (items source).drop k ≠ [] := by
      rw [← Lexer.pending_ofSource, ← Lexer.pending_after, Lexer.pending,
        Lexer.done_after_eq_false hrest, itemsFrom_eq_append]
      exact List.append_ne_nil_of_right_ne_nil _ (List.cons_ne_nil _ _)
    have hlength : k < (items source).length := by
      by_contra hle
      exact hpending (List.drop_eq_nil_of_le (Nat.le_of_not_lt hle))
    rw [Lexer.answers_eq, Lexer.pending_ofSource, Nat.sub_eq_zero_of_le hlength.le,
      List.replicate_zero, List.append_nil]
    intro hmem
    obtain ⟨item, -, hitem⟩ := List.mem_map.mp hmem
    cases hitem
  · rw [Lexer.ofSource_append]
    exact Lexer.answers_continued h more

/-- A number before two points: no digit behind the second makes the first one part of it. -/
theorem answers_append_points :
    2 ≤ ((Lexer.ofSource "1..").after 1).rest.length ∧
      none ∉ (Lexer.ofSource "1..").answers 1 ∧
      (Lexer.ofSource ("1.." ++ "5")).answers 1 = (Lexer.ofSource "1..").answers 1 := by
  have hleaves : 2 ≤ ((Lexer.ofSource "1..").after 1).rest.length := by decide +kernel
  exact ⟨hleaves, answers_append hleaves "5"⟩

/-- One character does not suffice: a digit behind the point makes it part of the number. -/
example : ((Lexer.ofSource "1.").after 1).rest.length = 1 ∧
    (Lexer.ofSource ("1." ++ "5")).answers 1 ≠ (Lexer.ofSource "1.").answers 1 := by
  decide +kernel

end LoxFront

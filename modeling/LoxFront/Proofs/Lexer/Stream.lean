import LoxFront.Lexer
import Mathlib.Data.List.Basic
import Mathlib.Logic.Function.Iterate

/-!
# The stream of a lexer

A lexer is asked for its items one at a time, and a scan has them all at once. Both see
the same stream.

* `Lexer.Yields l answer l'` — everything a call can do: answer nothing, answer the mark of
  the end, answer the item of the next segment, or skip that segment and go on;
* `yields_next?` — a call does one of these, so that a fact about calls is proved by
  induction on `Yields` and `Lexer.next?` is not unfolded again;
* `Lexer.pending` — the items still to come; a call takes the first of them off
  (`Yields.answer_eq`, `Yields.pending_eq`);
* `Lexer.answers` — the answers of a number of calls: a first part of the items still to come,
  and then nothing (`answers_eq`);
* `answer_after` — the answer of the `n`-th call to a fresh lexer is the `n`-th item of the
  source, and none once the items are used up.
-/

namespace LoxFront

namespace Lexer

/-- **What a call can do**: `l` answers `answer` and is `l'` from then on. -/
inductive Yields : Lexer → Option Item → Lexer → Prop
  | exhausted {l : Lexer} (hdone : l.done = true) : Yields l none l
  | eof {l : Lexer} (hdone : l.done = false) (hrest : l.rest = []) :
      Yields l (some (.token (.eof l.line))) { l with done := true }
  | item {l : Lexer} {c : Char} {cs : List Char} {item : Item} (hdone : l.done = false)
      (hrest : l.rest = c :: cs) (hitem : (Segment.first c cs).1.item? l.line = some item) :
      Yields l (some item) (l.advance (Segment.first c cs).1 (Segment.first c cs).2)
  | skip {l l' : Lexer} {c : Char} {cs : List Char} {answer : Option Item}
      (hdone : l.done = false) (hrest : l.rest = c :: cs)
      (hitem : (Segment.first c cs).1.item? l.line = none)
      (h : Yields (l.advance (Segment.first c cs).1 (Segment.first c cs).2) answer l') :
      Yields l answer l'

theorem next?_of_nil {l : Lexer} (hdone : l.done = false) (hrest : l.rest = []) :
    l.next? = (some (.token (.eof l.line)), { l with done := true }) := by
  rw [next?, hdone, if_neg Bool.false_ne_true]
  split
  · rfl
  · next hcons => exact absurd (hrest.symm.trans hcons) (by simp)

theorem next?_of_cons {l : Lexer} {c : Char} {cs : List Char} (hdone : l.done = false)
    (hrest : l.rest = c :: cs) :
    l.next? =
      match (Segment.first c cs).1.item? l.line with
      | some item => (some item, l.advance (Segment.first c cs).1 (Segment.first c cs).2)
      | none => (l.advance (Segment.first c cs).1 (Segment.first c cs).2).next? := by
  rw [next?, hdone, if_neg Bool.false_ne_true]
  split
  · next hnil => exact absurd (hrest.symm.trans hnil) (by simp)
  · next hcons =>
    obtain ⟨rfl, rfl⟩ := List.cons.inj (hrest.symm.trans hcons)
    rfl

/-- **The calls are the rules of `Yields`.** -/
theorem yields_next? (l : Lexer) : Yields l l.next?.1 l.next?.2 := by
  induction l using Lexer.next?.induct with
  | case1 l hdone =>
    rw [next?, if_pos hdone]
    exact Yields.exhausted hdone
  | case2 l hdone hrest =>
    rw [Bool.not_eq_true] at hdone
    rw [next?_of_nil hdone hrest]
    exact Yields.eof hdone hrest
  | case3 l hdone c cs hrest cut item hitem =>
    rw [Bool.not_eq_true] at hdone
    rw [next?_of_cons hdone hrest, hitem]
    exact Yields.item hdone hrest hitem
  | case4 l hdone c cs hrest cut after hitem ih =>
    rw [Bool.not_eq_true] at hdone
    rw [next?_of_cons hdone hrest, hitem]
    exact Yields.skip hdone hrest hitem ih

/-- The rules leave no choice. -/
theorem Yields.next?_eq {l l' : Lexer} {answer : Option Item} (h : Yields l answer l') :
    l.next? = (answer, l') := by
  induction h with
  | exhausted hdone => rw [next?, if_pos hdone]
  | eof hdone hrest => exact next?_of_nil hdone hrest
  | item hdone hrest hitem => rw [next?_of_cons hdone hrest, hitem]
  | skip hdone hrest hitem _ ih =>
    rw [next?_of_cons hdone hrest, hitem]
    exact ih

/-! ### The items still to come -/

/-- **The items that a lexer has still to yield.** -/
def pending (l : Lexer) : List Item :=
  if l.done then [] else itemsFrom l.line (segments l.rest)

theorem pending_of_done {l : Lexer} (hdone : l.done = true) : l.pending = [] := if_pos hdone

theorem pending_of_cons {l : Lexer} {c : Char} {cs : List Char} (hdone : l.done = false)
    (hrest : l.rest = c :: cs) :
    l.pending = ((Segment.first c cs).1.item? l.line).toList ++
      (l.advance (Segment.first c cs).1 (Segment.first c cs).2).pending := by
  unfold pending advance
  rw [hdone, hrest, segments_cons, itemsFrom_cons]
  rfl

@[simp] theorem pending_ofSource (source : String) : (ofSource source).pending = items source := rfl

theorem Yields.answer_eq {l l' : Lexer} {answer : Option Item} (h : Yields l answer l') :
    answer = l.pending.head? := by
  induction h with
  | exhausted hdone => rw [pending_of_done hdone, List.head?_nil]
  | @eof l hdone hrest =>
    unfold pending
    rw [hdone, hrest, segments_nil]
    rfl
  | item hdone hrest hitem =>
    rw [pending_of_cons hdone hrest, hitem]
    rfl
  | skip hdone hrest hitem _ ih =>
    rw [pending_of_cons hdone hrest, hitem]
    exact ih

theorem Yields.pending_eq {l l' : Lexer} {answer : Option Item} (h : Yields l answer l') :
    l'.pending = l.pending.tail := by
  induction h with
  | exhausted hdone => rw [pending_of_done hdone, List.tail_nil]
  | @eof l hdone hrest =>
    unfold pending
    rw [hdone, hrest, segments_nil]
    rfl
  | item hdone hrest hitem =>
    rw [pending_of_cons hdone hrest, hitem]
    rfl
  | skip hdone hrest hitem _ ih =>
    rw [pending_of_cons hdone hrest, hitem]
    exact ih

/-! ### Many calls -/

/-- **The lexer after `n` calls.** -/
def after (l : Lexer) (n : Nat) : Lexer := (fun l => l.next?.2)^[n] l

@[simp] theorem after_zero (l : Lexer) : l.after 0 = l := rfl

theorem after_succ (l : Lexer) (n : Nat) : l.after (n + 1) = (l.after n).next?.2 :=
  Function.iterate_succ_apply' _ n l

/-- The calls after the first are calls to the lexer after one. -/
theorem after_add_one (l : Lexer) (n : Nat) : l.after (n + 1) = l.next?.2.after n :=
  Function.iterate_succ_apply _ n l

theorem pending_after (l : Lexer) (n : Nat) : (l.after n).pending = l.pending.drop n := by
  induction n with
  | zero => rfl
  | succ n ih => rw [after_succ, (yields_next? _).pending_eq, ih, List.tail_drop]

/-- **The answer of each call** to a fresh lexer is the item of that number. -/
theorem answer_after (source : String) (n : Nat) :
    ((ofSource source).after n).next?.1 = (items source)[n]? := by
  rw [(yields_next? _).answer_eq, pending_after, pending_ofSource, List.head?_drop]

/-- **The answers of `n` calls** in a row. -/
def answers (l : Lexer) (n : Nat) : List (Option Item) :=
  (List.range n).map fun k => (l.after k).next?.1

theorem answers_succ (l : Lexer) (n : Nat) : l.answers (n + 1) = l.next?.1 :: l.next?.2.answers n := by
  unfold answers
  rw [List.range_succ_eq_map, List.map_cons, List.map_map]
  simp only [Function.comp_def, Nat.succ_eq_add_one, after_add_one]
  rfl

/-- **A first part of the stream**, and then nothing. -/
theorem answers_eq (l : Lexer) (n : Nat) :
    l.answers n = (l.pending.take n).map some ++ List.replicate (n - l.pending.length) none := by
  induction n generalizing l with
  | zero => simp [answers]
  | succ n ih =>
    rw [answers_succ, ih, (yields_next? l).answer_eq, (yields_next? l).pending_eq]
    cases l.pending with
    | nil => simp [List.replicate_succ]
    | cons item items =>
      rw [List.head?_cons, List.tail_cons, List.take_succ_cons, List.map_cons, List.length_cons,
        Nat.add_sub_add_right, List.cons_append]

/-- What was answered at all, without the calls that came too late. -/
theorem filterMap_answers (l : Lexer) (n : Nat) : (l.answers n).filterMap id = l.pending.take n := by
  rw [answers_eq, List.filterMap_append, List.filterMap_map, List.filterMap_replicate_of_none rfl,
    List.append_nil]
  exact List.filterMap_some

end Lexer

end LoxFront

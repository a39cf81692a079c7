import LoxFront.Proofs.Item.Parts
import LoxFront.Proofs.Lexer.Stream
import LoxFront.Proofs.Segment.Boundary

/-!
# Streams end, and do not meet

The stream of a lexer is finite: every step but the last takes something off the source, and
after the mark of the end there is nothing. Lexers that are asked in turn keep their streams
apart.

* `Lexer.scanStep` — one step of a call, over the first segment or to the mark of the end;
* `Lexer.Progress l` — a call to `l` is a row of steps, and each step before the mark of the
  end takes at least one character;
* `Lexer.FusedStream source stream` — everything there is to a stream: its answers, its
  length, its end and its parts;
* `Lexer.answersOf i` — of the answers to calls in turn, those of the lexer number `i`
  (`answersOf_turns`).

The main statement is `fusedStream_items`.
-/

namespace LoxFront

/-! ### How many items there are -/

/-- No more segments than characters: each has one at least. -/
theorem length_segments_le (cs : List Char) : (segments cs).length ≤ cs.length := by
  induction cs using segments.induct with
  | case1 => simp
  | case2 c cs cut ih =>
    have hrest : cut.2.length < (c :: cs).length := Segment.length_rest_first c cs
    rw [segments_cons]
    exact Nat.lt_of_le_of_lt ih hrest

/-- No more items than segments: each yields one at most. -/
theorem length_foundFrom_le (line : Nat) (segs : List Segment) :
    (foundFrom line segs).length ≤ segs.length := by
  induction segs generalizing line with
  | nil => exact Nat.le_refl 0
  | cons s segs ih =>
    have hfirst : (s.item? line).toList.length ≤ 1 := by cases s.item? line <;> simp
    have hlater := ih (line + s.lineFeeds)
    rw [foundFrom_cons, List.length_append, List.length_cons]
    omega

/-- **What a segment yields is not the mark of the end.** -/
theorem kind_ne_eof_of_item? {s : Segment} {line : Nat} {t : Token}
    (h : s.item? line = some (.token t)) : t.kind ≠ .eof := by
  obtain ⟨-, u, hu, hkind, -⟩ | ⟨c, -, hc⟩ | ⟨body, -, hbody⟩ := Segment.item?_cases h
  · obtain rfl := Item.token.inj hu
    exact hkind
  · cases hc
  · cases hbody

namespace Lexer

/-- **One step of a call**: the first segment is read, or the mark of the end is reached. -/
def scanStep (l : Lexer) : Option Item × Lexer :=
  match l.rest with
  | [] => (some (.token (.eof l.line)), { l with done := true })
  | c :: cs =>
    ((Segment.first c cs).1.item? l.line, l.advance (Segment.first c cs).1 (Segment.first c cs).2)

/-- **The steps of a lexer get on.** -/
structure Progress (l : Lexer) : Prop where
  /-- A call takes steps until one of them yields something. -/
  next?_eq : l.next? =
    match l.scanStep with
    | (some item, l') => (some item, l')
    | (none, l') => l'.next?
  /-- The mark of the end is what the step at the end of the source yields, and no other. -/
  eof_iff : (∃ t : Token, l.scanStep.1 = some (.token t) ∧ t.kind = .eof) ↔ l.rest = []
  /-- Any other step takes at least one character. -/
  takes : l.rest ≠ [] → ∃ taken, taken ≠ [] ∧ l.rest = taken ++ l.scanStep.2.rest

theorem scanStep_of_nil {l : Lexer} (h : l.rest = []) :
    l.scanStep = (some (.token (.eof l.line)), { l with done := true }) := by
  unfold scanStep
  rw [h]

theorem scanStep_of_cons {l : Lexer} {c : Char} {cs : List Char} (h : l.rest = c :: cs) :
    l.scanStep = ((Segment.first c cs).1.item? l.line,
      l.advance (Segment.first c cs).1 (Segment.first c cs).2) := by
  unfold scanStep
  rw [h]

/-- **Progress.** There are two cases, the end of the source and a first segment. -/
theorem progress_of_not_done {l : Lexer} (hdone : l.done = false) : l.Progress := by
  cases hrest : l.rest with
  | nil =>
    refine ⟨?_, ?_, fun hne => absurd hrest hne⟩
    · rw [next?_of_nil hdone hrest, scanStep_of_nil hrest]
    · rw [scanStep_of_nil hrest]
      exact iff_of_true ⟨Token.eof l.line, rfl, rfl⟩ hrest
  | cons c cs =>
    refine ⟨?_, ?_, fun _ => ?_⟩
    · rw [next?_of_cons hdone hrest, scanStep_of_cons hrest]
      cases (Segment.first c cs).1.item? l.line <;> rfl
    · rw [scanStep_of_cons hrest]
      refine iff_of_false ?_ (by simp [hrest])
      rintro ⟨t, hitem, hkind⟩
      exact kind_ne_eof_of_item? hitem hkind
    · rw [scanStep_of_cons hrest]
      refine ⟨(Segment.first c cs).1.text, (Segment.wellFormed_first c cs).text_ne_nil, ?_⟩
      rw [hrest]
      exact (Segment.text_first c cs).symm

/-! ### One stream -/

/-- **A fused stream**: the stream of a source, from its first item to the nothing after it. -/
structure FusedStream (source : String) (stream : List Item) : Prop where
  /-- The calls answer the items in turn, and after them nothing. -/
  answer_eq : ∀ n, ((ofSource source).after n).next?.1 = stream[n]?
  length_pos : 1 ≤ stream.length
  length_le : stream.length ≤ source.length + 1
  /-- The mark of the end is there, and has no text. -/
  last_eq : ∃ t : Token, stream.getLast? = some (.token t) ∧ t.kind = .eof ∧ t.lexeme = ""
  /-- The mark of the end is there once. -/
  kind_ne_eof : ∀ t : Token, .token t ∈ stream.dropLast → t.kind ≠ .eof
  /-- The tokens and the diagnostics make up the scan. -/
  tokens_eq : stream.filterMap Item.token? = (scan source).tokens
  diagnostics_eq : stream.filterMap Item.diagnostic? = (scan source).diagnostics

theorem fusedStream (source : String) : FusedStream source (items source) where
  answer_eq := answer_after source
  length_pos := by
    rw [items_eq_append, List.length_append]
    exact Nat.le_add_left 1 _
  length_le := by
    have hitems := length_foundFrom_le 1 (segments source.toList)
    have hsegments := length_segments_le source.toList
    rw [String.length_toList] at hsegments
    rw [items_eq_append, List.length_append, List.length_singleton]
    omega
  last_eq := by
    rw [items_eq_append, List.getLast?_concat]
    exact ⟨Token.eof _, rfl, rfl, rfl⟩
  kind_ne_eof := by
    intro t ht
    rw [items_eq_append, List.dropLast_concat] at ht
    obtain ⟨s, -, line, hitem⟩ := exists_of_mem_foundFrom ht
    exact kind_ne_eof_of_item? hitem
  tokens_eq := rfl
  diagnostics_eq := rfl

/-! ### Calls in turn -/

/-- **The answers of one lexer** among the answers to calls in turn. -/
def answersOf (i : Nat) (order : List Nat) (answers : List (Option Item)) : List (Option Item) :=
  (order.zip answers).filterMap fun call => if call.1 = i then some call.2 else none

theorem answersOf_cons_self (i : Nat) (order : List Nat) (answer : Option Item)
    (answers : List (Option Item)) :
    answersOf i (i :: order) (answer :: answers) = answer :: answersOf i order answers := by
  unfold answersOf
  rw [List.zip_cons_cons]
  exact List.filterMap_cons_some (if_pos rfl)

theorem answersOf_cons_of_ne {i j : Nat} (h : j ≠ i) (order : List Nat) (answer : Option Item)
    (answers : List (Option Item)) :
    answersOf i (j :: order) (answer :: answers) = answersOf i order answers := by
  unfold answersOf
  rw [List.zip_cons_cons]
  exact List.filterMap_cons_none (if_neg h)

/-- **A lexer does not notice the others.** Its answers are those that it gives when it is
asked alone, as often as the order names it. -/
theorem answersOf_turns {lexers : List Lexer} {i : Nat} {l : Lexer} (h : lexers[i]? = some l)
    (order : List Nat) :
    answersOf i order (turns lexers order) = l.answers (order.count i) := by
  -- The lexer moves on with each of its own calls, so the induction is for any `l` at place `i`.
  induction order generalizing lexers l with
  | nil => rfl
  | cons j order ih =>
    rw [turns]
    by_cases hj : j = i
    · -- The call is one of its own; the calls after it are calls to the lexer after one.
      subst hj
      have hset : (lexers.set j l.next?.2)[j]? = some l.next?.2 :=
        List.getElem?_set_self (List.getElem?_eq_some_iff.mp h).1
      simp only [h]
      rw [answersOf_cons_self, ih hset, List.count_cons_self, answers_succ]
    · -- The call is to another lexer, or to none; at place `i` nothing has changed.
      rw [List.count_cons_of_ne hj]
      cases hlexer : lexers[j]? with
      | none => rw [answersOf_cons_of_ne hj, ih h]
      | some other =>
        have hset : (lexers.set j other.next?.2)[i]? = some l := by
          rw [List.getElem?_set_ne hj, h]
        rw [answersOf_cons_of_ne hj, ih hset]

end Lexer

open Lexer in
/-- **The stream of a source** is finite and fused, and it is the scan item by item. Each step
takes at least one character until the mark of the end is reached. Whatever other lexers there
are and in whatever order they all are asked, what the lexer of this source answers is a first
part of its stream and then nothing. -/
theorem fusedStream_items (source : String) :
    FusedStream source (items source) ∧
      (∀ l : Lexer, l.done = false → l.Progress) ∧
      ∀ (sources : List String) (order : List Nat) (i : Nat), sources[i]? = some source →
        answersOf i order (turns (sources.map ofSource) order) =
          ((items source).take (order.count i)).map some ++
            List.replicate (order.count i - (items source).length) none := by
  refine ⟨fusedStream source, fun l => progress_of_not_done, ?_⟩
  intro sources order i hi
  have hlexer : (sources.map ofSource)[i]? = some (ofSource source) := by
    rw [List.getElem?_map, hi]
    rfl
  rw [answersOf_turns hlexer, answers_eq, pending_ofSource]

/-- Two lexers asked in turn, the first of them once too often. -/
theorem fusedStream_items_turns : ["a+", "@ 1"][0]? = some "a+" ∧
    Lexer.answersOf 0 [0, 1, 0, 0, 1, 0]
        (Lexer.turns (["a+", "@ 1"].map Lexer.ofSource) [0, 1, 0, 0, 1, 0]) =
      [some (.token ⟨.identifier, "a", none, 1⟩), some (.token ⟨.operator .plus, "+", none, 1⟩),
        some (.token (.eof 1)), none] := by
  have hitems : items "a+" =
      [.token ⟨.identifier, "a", none, 1⟩, .token ⟨.operator .plus, "+", none, 1⟩,
        .token (.eof 1)] := by decide +kernel
  refine ⟨rfl, ?_⟩
  rw [(fusedStream_items "a+").2.2 ["a+", "@ 1"] [0, 1, 0, 0, 1, 0] 0 rfl, hitems]
  rfl

end LoxFront

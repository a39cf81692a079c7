import LoxFront.Proofs.Segment.Boundary

/-!
# Lexemes side by side

Lexemes may be put next to each other without a gap, and most of them are still found again.
This file says which are not.

* `Lexeme` — an operator, a closed string, a number or a word;
* `Segment.Fuses` — the pairs that run into each other, by four rules;
* `Lexeme.endsBefore_text_append_iff` — a lexeme ends before another, and any text behind it,
  exactly if the two do not fuse and no point between them turns into a fraction;
* `Lexeme.segments_text_append_iff` — two lexemes are cut as they stand exactly if they do not fuse.

All of it rests on the first character of a lexeme, which tells its class.
-/

namespace LoxFront

open Text

namespace Segment

def isWord : Segment → Bool
  | word _ => true
  | _ => false

def isNumber : Segment → Bool
  | number _ => true
  | _ => false

/-- The numbers without a fraction. -/
def isWhole : Segment → Bool
  | number numeral => numeral.fraction.isEmpty
  | _ => false

/-- **The pairs that fuse**, put next to each other: a word and a word or a number; two numbers;
an operator that an equals sign makes wider and a lexeme that begins with one; two slashes. -/
def Fuses (s t : Segment) : Prop :=
  (s.isWord = true ∧ (t.isWord = true ∨ t.isNumber = true)) ∨
    (s.isNumber = true ∧ t.isNumber = true) ∨
    (s ∈ [operator .bang, operator .equal, operator .less, operator .greater] ∧
      t.text.head? = some '=') ∨
    (s = operator .slash ∧ t = operator .slash)

instance : DecidableRel Fuses := fun s t => by
  unfold Fuses
  infer_instance

end Segment

open Segment

/-- **A lexeme** of the language. -/
structure Lexeme where
  segment : Segment
  wellFormed : segment.WellFormed
  isLexeme : segment.isLexeme = true

namespace Lexeme

variable (x y : Lexeme)

def text : List Char := x.segment.text

/-! ### The first character -/

/-- **The first character of a lexeme tells its class.** -/
theorem exists_text_eq_cons :
    ∃ c cs, x.text = c :: cs ∧ c.isDigit = x.segment.isNumber ∧
      isWordPart c = (x.segment.isWord || x.segment.isNumber) := by
  obtain ⟨s, hs, hlexeme⟩ := x
  change ∃ c cs, s.text = c :: cs ∧ c.isDigit = s.isNumber ∧
    isWordPart c = (s.isWord || s.isNumber)
  cases s with
  | operator op =>
    -- Wide or not, an operator begins with a character that spells one.
    obtain ⟨c, cs, base, htext, hc⟩ : ∃ c cs base, op.text.toList = c :: cs ∧
        Operator.ofChar? c = some base := by
      obtain ⟨c, htext, hc⟩ | ⟨c, base, htext, hc, -⟩ := operator_text_cases op
      · exact ⟨c, [], op, htext, hc⟩
      · exact ⟨c, ['='], base, htext, hc⟩
    obtain ⟨-, -, hdigit, hstart⟩ := not_special_of_ofChar? hc
    refine ⟨c, cs, htext, hdigit, ?_⟩
    rw [isWordPart, hstart, hdigit]
    rfl
  | string value => exact ⟨'"', value ++ ['"'], rfl, rfl, rfl⟩
  | number numeral =>
    obtain ⟨c, cs, htext⟩ := List.exists_cons_of_ne_nil hs.text_ne_nil
    have hdigit : c.isDigit = true := isDigit_head_text hs ((List.append_nil _).trans htext)
    exact ⟨c, cs, htext, hdigit, isWordPart_of_isDigit hdigit⟩
  | word w =>
    obtain ⟨c, cs, rfl, hstart, -⟩ := hs.word_eq_cons
    exact ⟨c, cs, rfl, isDigit_eq_false_of_isWordStart hstart, isWordPart_of_isWordStart hstart⟩
  | _ => exact absurd hlexeme (by simp [Segment.isLexeme])

/-- A character that spells an operator, and none that an equals sign makes wider, begins no other
lexeme. -/
theorem eq_operator_of_text_eq_cons {c : Char} {cs : List Char} {op : Operator}
    (htext : x.text = c :: cs) (hc : Operator.ofChar? c = some op) (hop : op.withEqual? = none) :
    x.segment = operator op := by
  obtain ⟨-, hquote, hdigit, hstart⟩ := not_special_of_ofChar? hc
  obtain ⟨s, hs, hlexeme⟩ := x
  change s.text = c :: cs at htext
  change s = operator op
  cases s with
  | operator op' =>
    -- A wide operator would make `op` wider.
    obtain ⟨d, htext', hd⟩ | ⟨d, base, htext', hd, hbase⟩ := operator_text_cases op'
    · obtain rfl : d = c := (List.cons.inj (htext'.symm.trans htext)).1
      rw [Option.some.inj (hd.symm.trans hc)]
    · obtain rfl : d = c := (List.cons.inj (htext'.symm.trans htext)).1
      rw [Option.some.inj (hd.symm.trans hc), hop] at hbase
      exact absurd hbase (by simp)
  | string value => exact absurd (List.cons.inj htext).1.symm hquote
  | number numeral =>
    have hdigit' : c.isDigit = true := isDigit_head_text hs ((List.append_nil _).trans htext)
    rw [hdigit] at hdigit'
    exact absurd hdigit' (by simp)
  | word w =>
    obtain ⟨d, ds, rfl, hstart', -⟩ := hs.word_eq_cons
    obtain rfl : d = c := (List.cons.inj htext).1
    rw [hstart] at hstart'
    exact absurd hstart' (by simp)
  | _ => exact absurd hlexeme (by simp [Segment.isLexeme])

theorem stops_isDigit_iff (rest : List Char) :
    Stops Char.isDigit (x.text ++ rest) ↔ x.segment.isNumber = false := by
  obtain ⟨c, cs, htext, hdigit, -⟩ := x.exists_text_eq_cons
  rw [htext, List.cons_append, stops_cons, hdigit]

theorem stops_isWordPart_iff (rest : List Char) :
    Stops isWordPart (x.text ++ rest) ↔ (x.segment.isWord || x.segment.isNumber) = false := by
  obtain ⟨c, cs, htext, -, hpart⟩ := x.exists_text_eq_cons
  rw [htext, List.cons_append, stops_cons, hpart]

theorem stops_equal_iff (rest : List Char) :
    Stops (· == '=') (x.text ++ rest) ↔ x.text.head? ≠ some '=' := by
  obtain ⟨c, cs, htext, -⟩ := x.exists_text_eq_cons
  rw [htext, List.cons_append, stops_cons, beq_eq_false_iff_ne, List.head?_cons, ne_eq, ne_eq,
    Option.some_inj]

theorem stops_slash_iff (rest : List Char) :
    Stops (· == '/') (x.text ++ rest) ↔ x.segment ≠ operator .slash := by
  obtain ⟨c, cs, htext, -⟩ := x.exists_text_eq_cons
  rw [htext, List.cons_append, stops_cons, beq_eq_false_iff_ne, not_iff_not]
  constructor
  · rintro rfl
    have hslash : Operator.ofChar? '/' = some .slash := by decide
    exact x.eq_operator_of_text_eq_cons htext hslash rfl
  · intro h
    rw [text, h] at htext
    exact (List.cons.inj htext).1.symm

/-- Only a point begins with a point. -/
theorem text_append_eq_point_iff (rest tail : List Char) :
    x.text ++ rest = '.' :: tail ↔ x.segment = operator .dot ∧ rest = tail := by
  constructor
  · intro h
    obtain ⟨c, cs, htext, -⟩ := x.exists_text_eq_cons
    obtain rfl : c = '.' := by
      rw [htext] at h
      exact (List.cons.inj h).1
    have hpoint : Operator.ofChar? '.' = some .dot := by decide
    have hdot : x.segment = operator .dot := x.eq_operator_of_text_eq_cons htext hpoint rfl
    rw [text, hdot] at h
    exact ⟨hdot, (List.cons.inj h).2⟩
  · rintro ⟨hdot, rfl⟩
    rw [text, hdot]
    rfl

/-! ### The four rules -/

theorem fuses_operator_iff (op : Operator) (t : Segment) :
    (operator op).Fuses t ↔
      (op.withEqual? ≠ none ∧ t.text.head? = some '=') ∨ (op = .slash ∧ t = operator .slash) := by
  cases op <;> simp [Fuses, isWord, isNumber, Operator.withEqual?]

/-- **A lexeme ends before another**, and any text behind it, if the two do not fuse and the other
is not a point that what is behind it turns into a fraction. -/
theorem endsBefore_text_append_iff (rest : List Char) :
    x.segment.EndsBefore (y.text ++ rest) ↔
      ¬ x.segment.Fuses y.segment ∧
        (x.segment.isWhole = true → y.segment = operator .dot → Stops Char.isDigit rest) := by
  obtain ⟨s, hs, hlexeme⟩ := x
  change s.EndsBefore _ ↔ ¬ s.Fuses _ ∧ (s.isWhole = true → _)
  cases s with
  | operator op =>
    rw [fuses_operator_iff, EndsBefore, stops_equal_iff, stops_slash_iff, not_or, not_and, not_and]
    exact (and_iff_left fun hwhole => absurd hwhole (by simp [isWhole])).symm
  | string value => simp [EndsBefore, Fuses, isWord, isNumber, isWhole]
  | number numeral =>
    have hfuses : ¬ (number numeral).Fuses y.segment ↔ y.segment.isNumber = false := by
      simp [Fuses, isWord, isNumber]
    rw [hfuses, ← y.stops_isDigit_iff rest]
    -- What stands behind a point matters, and nothing but a point begins with one.
    refine and_congr_right fun _ => ⟨fun h hwhole hdot => ?_, fun h hwhole tail htail => ?_⟩
    · have hpoint := (y.text_append_eq_point_iff rest rest).mpr ⟨hdot, rfl⟩
      exact h (List.isEmpty_iff.mp hwhole) rest hpoint
    · obtain ⟨hdot, rfl⟩ := (y.text_append_eq_point_iff rest tail).mp htail
      exact h (List.isEmpty_iff.mpr hwhole) hdot
  | word w =>
    rw [EndsBefore, stops_isWordPart_iff]
    simp [Fuses, isWord, isNumber, isWhole]
  | _ => exact absurd hlexeme (by simp [Segment.isLexeme])

/-- A lexeme ends before another exactly if the two do not fuse. -/
theorem endsBefore_text_iff : x.segment.EndsBefore y.text ↔ ¬ x.segment.Fuses y.segment := by
  have h := endsBefore_text_append_iff x y []
  rw [List.append_nil] at h
  rw [h]
  exact and_iff_left fun _ _ => stops_nil _

/-- **The rules are exact.** Two lexemes are cut as they stand exactly if they do not fuse. -/
theorem segments_text_append_iff :
    segments (x.text ++ y.text) = [x.segment, y.segment] ↔ ¬ x.segment.Fuses y.segment := by
  rw [← endsBefore_text_iff]
  constructor
  · intro h
    have hsep := separated_segments (x.text ++ y.text)
    rw [h] at hsep
    obtain ⟨-, hends, -⟩ := hsep
    rwa [List.flatMap_singleton, List.append_nil] at hends
  · intro hends
    have hsep : Separated [] [x.segment, y.segment] := by
      refine ⟨x.wellFormed, ?_, y.wellFormed, endsBefore_nil _, trivial⟩
      rwa [List.flatMap_singleton, List.append_nil]
    have hcut := segments_append_of_separated hsep
    rwa [List.append_nil, segments_nil, List.append_nil, List.flatMap_cons,
      List.flatMap_singleton] at hcut

end Lexeme

end LoxFront

import LoxFront.Proofs.Decimal.Value
import LoxFront.Proofs.Scan.Tokens

/-!
# The numbers of a scan

A number token holds the datum that its lexeme rounds to, with the lexeme read as a decimal.
-/

namespace LoxFront

open Binary64

/-- A number token is that of a numeral. -/
theorem exists_numeral {source : String} {t : Token} (ht : t ∈ (scan source).tokens)
    (hkind : t.kind = .number) :
    ∃ n : Numeral, (Segment.number n).WellFormed ∧ t.lexeme = String.ofList n.text ∧
      t.literal = some (.number n.value.nearest) := by
  cases lexical_of_mem_scan ht with
  | eof line => cases hkind
  | denoted hs hdenotes line =>
    cases hdenotes with
    | number numeral => exact ⟨numeral, hs, rfl, rfl⟩
    | _ => cases hkind

/-- **Scanned numbers are rounded correctly.** The lexeme of a number token is a numeral, of any
length, and the literal is the one datum that the value of the numeral rounds to: its sign bit is
clear, it is not NaN, it is infinity from the overflow threshold on and zero up to half a unit, and
below the normal values it is a whole number of units. -/
theorem number_roundsTo {source : String} {t : Token} (ht : t ∈ (scan source).tokens)
    (hkind : t.kind = .number) :
    ∃ (n : Numeral) (x : Binary64),
      (Segment.number n).WellFormed ∧
      t.lexeme = String.ofList n.text ∧
      t.literal = some (.number x) ∧
      (∀ y, RoundsTo n.toRat y ↔ y = x) ∧
      x.isNegative = false ∧
      x.isNaN = false ∧
      (x = infinity ↔ overflowThreshold ≤ n.toRat) ∧
      (x = ⟨0⟩ ↔ n.toRat ≤ 2 ^ (-1075 : ℤ)) ∧
      (n.toRat < 2 ^ (-1022 : ℤ) →
        ∃ k : ℕ, x.value = k * 2 ^ (-1074 : ℤ) ∧ |n.toRat - x.value| ≤ 2 ^ (-1075 : ℤ)) := by
  obtain ⟨n, hshape, hlexeme, hliteral⟩ := exists_numeral ht hkind
  have hrounds := n.value.roundsTo_nearest
  rw [n.toRat_value] at hrounds
  refine ⟨n, _, hshape, hlexeme, hliteral, fun y => ?_, isNegative_nearest .., isNaN_nearest ..,
    hrounds.eq_infinity_iff n.toRat_nonneg, hrounds.eq_zero_iff n.toRat_nonneg,
    hrounds.exists_subnormal n.toRat_nonneg⟩
  constructor
  · intro hy
    exact hy.unique hrounds
  · rintro rfl
    exact hrounds

/-- Half way between two values, of which the lesser has the even significand. -/
theorem number_roundsTo_halfway :
    ∃ t ∈ (scan "9007199254740993").tokens,
      t.kind = .number ∧ t.literal = some (.number ⟨0x4340000000000000⟩) ∧
      ∀ y, RoundsTo 9007199254740993 y ↔ y = ⟨0x4340000000000000⟩ := by
  have ht : (scan "9007199254740993").tokens[0]? =
      some (.number "9007199254740993" ⟨0x4340000000000000⟩ 1) := by decide +kernel
  replace ht := List.mem_of_getElem? ht
  refine ⟨_, ht, rfl, rfl, ?_⟩
  obtain ⟨n, x, hshape, hlexeme, hliteral, hrounds, -⟩ := number_roundsTo ht rfl
  obtain rfl := Literal.number.inj (Option.some.inj hliteral)
  have hnumeral : Segment.number n = Segment.number ⟨"9007199254740993".toList, []⟩ := by
    have hdigits : "9007199254740993".toList.all Char.isDigit = true := by decide
    refine hshape.eq_of_text_eq
      ⟨by decide, List.all_eq_true.mp hdigits, List.forall_mem_nil _⟩ ?_
    exact (String.ofList_injective hlexeme).symm
  obtain rfl := Segment.number.inj hnumeral
  have hvalue : Numeral.toRat ⟨"9007199254740993".toList, []⟩ = 9007199254740993 := by
    have hdigits : Nat.ofDigitChars 10 ("9007199254740993".toList ++ []) 0 = 9007199254740993 := by
      decide
    rw [← Numeral.toRat_value, Decimal.toRat, Numeral.value, hdigits]
    norm_num
  rwa [hvalue] at hrounds

end LoxFront

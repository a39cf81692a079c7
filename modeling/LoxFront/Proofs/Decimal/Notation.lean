import LoxFront.Proofs.Decimal.Value
import LoxFront.Segment.Basic
import Mathlib.Data.List.DropRight

/-!
# Positional notation

A decimal is written as a numeral of the same value. The zeros that this takes, before the digits of
the coefficient and behind them, are not significant.

* `Decimal.wellFormed_numeral`, `Decimal.toRat_numeral` — the notation is a numeral, with the value
  of the decimal;
* `significantDigits` — the digits of a text without the zeros at both ends;
* `Decimal.length_significantDigits_le` — in the notation of a decimal they are no more than the
  coefficient has;
* `Numeral.exists_significant` — as a decimal, a numeral has no more digits than are significant;
* `Decimal.pow_le_toRat`, `Numeral.toRat_value_lt` — the digits before the point show how great a
  value is.
-/

namespace LoxFront

/-! ### Zeros around digits -/

/-- Zeros before the digits do not count, and each zero behind them counts tenfold. -/
theorem ofDigitChars_zeros (before behind : ℕ) (digits : List Char) :
    Nat.ofDigitChars 10 (List.replicate before '0' ++ digits ++ List.replicate behind '0') 0 =
      Nat.ofDigitChars 10 digits 0 * 10 ^ behind := by
  have hbefore : Nat.ofDigitChars 10 (List.replicate before '0') 0 = 0 := by
    rw [Nat.ofDigitChars_replicate_zero, Nat.mul_zero]
  rw [Nat.ofDigitChars_append, Nat.ofDigitChars_append, hbefore, Nat.ofDigitChars_replicate_zero,
    Nat.mul_comm]

/-- So many digits make no greater number. -/
theorem ofDigitChars_lt {digits : List Char} (h : ∀ c ∈ digits, c.isDigit = true) :
    Nat.ofDigitChars 10 digits 0 < 10 ^ digits.length := by
  induction digits with
  | nil => decide
  | cons c cs ih =>
    obtain ⟨hc, hcs⟩ := List.forall_mem_cons.mp h
    have hnine : c.toNat - '0'.toNat ≤ 9 := by
      have hupper := (Char.isDigit_iff_toNat.mp hc).2
      have hzero : '9'.toNat = '0'.toNat + 9 := rfl
      omega
    have hfirst : 10 ^ cs.length * (c.toNat - '0'.toNat) ≤ 10 ^ cs.length * 9 :=
      Nat.mul_le_mul_left _ hnine
    have hrest := ih hcs
    rw [ofDigitChars_cons_zero, List.length_cons, pow_succ]
    omega

/-- Digits without the zeros at both ends. -/
def trimZeros (digits : List Char) : List Char :=
  (digits.dropWhile (· == '0')).rdropWhile (· == '0')

theorem exists_eq_trimZeros (digits : List Char) :
    ∃ before behind, digits =
      List.replicate before '0' ++ trimZeros digits ++ List.replicate behind '0' := by
  have hzeros : ∀ cs : List Char, (∀ c ∈ cs, (c == '0') = true) →
      cs = List.replicate cs.length '0' := by
    intro cs h
    exact List.eq_replicate_of_mem fun c hc => eq_of_beq (h c hc)
  have hbefore := hzeros (digits.takeWhile (· == '0')) (List.all_eq_true.mp List.all_takeWhile)
  have hbehind := hzeros ((digits.dropWhile (· == '0')).rtakeWhile (· == '0'))
    fun c hc => List.mem_rtakeWhile_imp (p := (· == '0')) hc
  refine ⟨(digits.takeWhile (· == '0')).length,
    ((digits.dropWhile (· == '0')).rtakeWhile (· == '0')).length, ?_⟩
  rw [← hbefore, ← hbehind, trimZeros, List.append_assoc, List.rdropWhile_append_rtakeWhile,
    List.takeWhile_append_dropWhile]

/-- What is left between zeros is no more than what was between them. -/
theorem length_trimZeros_le (before behind : ℕ) (digits : List Char) :
    (trimZeros (List.replicate before '0' ++ digits ++ List.replicate behind '0')).length ≤
      digits.length := by
  have hzero : ∀ k, ∀ c ∈ List.replicate k '0', (c == '0') = true := by
    intro k c hc
    exact beq_iff_eq.mpr (List.eq_of_mem_replicate hc)
  unfold trimZeros
  rw [List.append_assoc, List.dropWhile_append_of_pos (hzero before), List.dropWhile_append]
  split
  · -- All the digits are zeros.
    rw [List.dropWhile_eq_nil_iff.mpr (hzero behind)]
    exact Nat.zero_le _
  · have hbehind : ∀ cs : List Char, (cs ++ List.replicate behind '0').rdropWhile (· == '0') =
        cs.rdropWhile (· == '0') := by
      intro cs
      unfold List.rdropWhile
      rw [List.reverse_append, List.dropWhile_append_of_pos]
      intro c hc
      exact hzero behind c (List.mem_reverse.mp hc)
    rw [hbehind]
    exact (List.rdropWhile_prefix _ _).length_le.trans (List.length_dropWhile_le _ _)

namespace Decimal

/-! ### The notation of a decimal -/

/-- The digits of the notation: those of the coefficient between zeros. -/
theorem append_numeral (d : Decimal) :
    d.numeral.whole ++ d.numeral.fraction =
      List.replicate ((-d.exponent).toNat + 1 - (Nat.toDigits 10 d.coefficient).length) '0' ++
        Nat.toDigits 10 d.coefficient ++ List.replicate d.exponent.toNat '0' :=
  List.take_append_drop _ _

/-- The digits after the point, of which there are as many as the exponent asks for, leave one
before it. -/
theorem length_fraction_numeral (d : Decimal) :
    d.numeral.fraction.length = (-d.exponent).toNat ∧ d.numeral.whole ≠ [] := by
  have hlength := congrArg List.length d.append_numeral
  have hfraction : d.numeral.fraction.length =
      (d.numeral.whole ++ d.numeral.fraction).length -
        ((d.numeral.whole ++ d.numeral.fraction).length - (-d.exponent).toNat) := by
    rw [append_numeral]
    exact List.length_drop
  simp only [List.length_append, List.length_replicate] at hlength hfraction
  rw [← List.length_pos_iff]
  omega

/-- **The digits before the point** show how great the decimal is, unless a zero had to be set
there. -/
theorem pow_le_toRat {d : Decimal} (hpos : d.coefficient ≠ 0) {k : ℕ} (hk : k ≠ 0)
    (hwhole : k < d.numeral.whole.length) : (10 : ℚ) ^ k ≤ d.toRat := by
  have hlength := congrArg List.length d.append_numeral
  simp only [List.length_append, List.length_replicate, d.length_fraction_numeral.1] at hlength
  have hdigits : 0 < (Nat.toDigits 10 d.coefficient).length := Nat.length_toDigits_pos
  have hcoefficient : 10 ^ ((Nat.toDigits 10 d.coefficient).length - 1) ≤ d.coefficient := by
    by_contra hlt
    rw [not_le] at hlt
    obtain hone | hmore := Nat.eq_zero_or_pos ((Nat.toDigits 10 d.coefficient).length - 1)
    · rw [hone] at hlt
      exact hpos (Nat.lt_one_iff.mp hlt)
    · have hfewer := (Nat.length_toDigits_le_iff (by decide) hmore).mpr hlt
      omega
  have hle : 10 ^ k * d.denominator ≤ d.numerator := by
    calc 10 ^ k * 10 ^ (-d.exponent).toNat
        = 10 ^ (k + (-d.exponent).toNat) := (pow_add ..).symm
      _ ≤ 10 ^ ((Nat.toDigits 10 d.coefficient).length - 1 + d.exponent.toNat) :=
          Nat.pow_le_pow_right (by decide) (by omega)
      _ = 10 ^ ((Nat.toDigits 10 d.coefficient).length - 1) * 10 ^ d.exponent.toNat := pow_add ..
      _ ≤ d.coefficient * 10 ^ d.exponent.toNat := Nat.mul_le_mul_right _ hcoefficient
  rw [toRat_eq_div, le_div_iff₀ (by exact_mod_cast d.denominator_pos)]
  exact_mod_cast hle

/-- **The notation of a decimal** is a numeral. -/
theorem wellFormed_numeral (d : Decimal) : (Segment.number d.numeral).WellFormed := by
  have hdigits : ∀ c ∈ d.numeral.whole ++ d.numeral.fraction, c.isDigit = true := by
    rw [append_numeral]
    intro c hc
    rw [List.mem_append, List.mem_append] at hc
    obtain (hc | hc) | hc := hc
    · rw [List.eq_of_mem_replicate hc]
      decide
    · exact Nat.isDigit_of_mem_toDigits (by decide) (by decide) hc
    · rw [List.eq_of_mem_replicate hc]
      decide
  exact ⟨d.length_fraction_numeral.2, fun c hc => hdigits c (List.mem_append_left _ hc),
    fun c hc => hdigits c (List.mem_append_right _ hc)⟩

/-- **The notation of a decimal** has its value. -/
theorem toRat_numeral (d : Decimal) : d.numeral.value.toRat = d.toRat := by
  have hexponent : d.exponent = d.exponent.toNat + -((-d.exponent).toNat : ℤ) := by omega
  have hpower : (10 : ℚ) ^ d.exponent =
      10 ^ d.exponent.toNat * 10 ^ (-((-d.exponent).toNat : ℤ)) := by
    rw [← zpow_natCast, ← zpow_add₀ (by norm_num), ← hexponent]
  unfold toRat Numeral.value
  rw [append_numeral, ofDigitChars_zeros, Nat.ofDigitChars_ten_toDigits,
    d.length_fraction_numeral.1, hpower]
  push_cast
  ring

end Decimal

/-! ### Significant digits -/

/-- **The significant digits of a text**: all but the zeros at both ends. -/
def significantDigits (text : String) : List Char := trimZeros (text.toList.filter Char.isDigit)

namespace Numeral

variable {n : Numeral} (h : (Segment.number n).WellFormed)

include h

theorem forall_isDigit : ∀ c ∈ n.whole ++ n.fraction, c.isDigit = true := by
  intro c hc
  rw [List.mem_append] at hc
  obtain hc | hc := hc
  · exact h.2.1 c hc
  · exact h.2.2 c hc

/-- A numeral without a fraction has no point. -/
theorem point_not_mem_text (hfraction : n.fraction = []) : '.' ∉ n.text := by
  obtain ⟨whole, fraction⟩ := n
  obtain rfl : fraction = [] := hfraction
  intro hpoint
  exact absurd (h.2.1 '.' hpoint) (by decide)

/-- The point is not a digit. -/
theorem significantDigits_text :
    significantDigits (String.ofList n.text) = trimZeros (n.whole ++ n.fraction) := by
  have hdigits := List.filter_eq_self.mpr (forall_isDigit h)
  rw [List.filter_append] at hdigits
  unfold significantDigits
  rw [String.toList_ofList, ← hdigits]
  obtain ⟨whole, fraction⟩ := n
  cases fraction with
  | nil => rw [text_whole, List.filter_nil, List.append_nil]
  | cons d ds => rw [text_fraction, List.filter_append, List.filter_cons_of_neg (by decide)]

/-- A numeral is less than the power of ten that has one more digit before the point. -/
theorem toRat_value_lt : n.value.toRat < 10 ^ n.whole.length := by
  have hdigits := ofDigitChars_lt (forall_isDigit h)
  rw [List.length_append, pow_add] at hdigits
  have hdigits' : (Nat.ofDigitChars 10 (n.whole ++ n.fraction) 0 : ℚ) <
      10 ^ n.whole.length * 10 ^ n.fraction.length := by exact_mod_cast hdigits
  unfold Decimal.toRat value
  rw [zpow_neg, zpow_natCast, ← div_eq_mul_inv, div_lt_iff₀ (by positivity)]
  exact hdigits'

omit h in
/-- The length of a numeral grows with its parts. -/
theorem length_text_le {m : Numeral} (hwhole : m.whole.length ≤ n.whole.length)
    (hfraction : m.fraction.length ≤ n.fraction.length) : m.text.length ≤ n.text.length := by
  obtain ⟨whole, fraction⟩ := m
  obtain ⟨whole', fraction'⟩ := n
  cases fraction with
  | nil =>
    refine hwhole.trans ?_
    cases fraction' with
    | nil => exact le_rfl
    | cons d ds =>
      rw [text_fraction, List.length_append]
      exact Nat.le_add_right _ _
  | cons d ds =>
    cases fraction' with
    | nil => exact absurd hfraction (by simp)
    | cons d' ds' =>
      rw [text_fraction, text_fraction, List.length_append, List.length_append, List.length_cons,
        List.length_cons (a := '.')]
      exact Nat.add_le_add hwhole (Nat.succ_le_succ hfraction)

/-- **A numeral as a decimal** with no more digits than are significant. -/
theorem exists_significant :
    ∃ d : Decimal, d.toRat = n.value.toRat ∧
      d.coefficient < 10 ^ (significantDigits (String.ofList n.text)).length := by
  obtain ⟨before, behind, hsplit⟩ := exists_eq_trimZeros (n.whole ++ n.fraction)
  have hvalue := (congrArg (Nat.ofDigitChars 10 · 0) hsplit).trans (ofDigitChars_zeros ..)
  rw [significantDigits_text h]
  refine ⟨⟨Nat.ofDigitChars 10 (trimZeros (n.whole ++ n.fraction)) 0,
    behind + -n.fraction.length⟩, ?_, ofDigitChars_lt fun c hc => ?_⟩
  · unfold Decimal.toRat value
    rw [hvalue, zpow_add₀ (by norm_num), zpow_natCast]
    push_cast
    ring
  · refine forall_isDigit h c ?_
    rw [hsplit]
    exact List.mem_append_left _ (List.mem_append_right _ hc)

end Numeral

/-- **The notation of a decimal** has no more significant digits than the coefficient. -/
theorem Decimal.length_significantDigits_le (d : Decimal) :
    (significantDigits (String.ofList d.numeral.text)).length ≤
      (Nat.toDigits 10 d.coefficient).length := by
  rw [Numeral.significantDigits_text d.wellFormed_numeral, append_numeral]
  exact length_trimZeros_le ..

end LoxFront

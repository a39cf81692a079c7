import LoxFront.Decimal
import LoxFront.Proofs.Binary64.Value

/-!
# Values of decimals and numerals

A decimal and a numeral stand for a rational number each, a numeral by the weights of its digits.
What is read from a numeral has the same value, and is rounded correctly.

* `Decimal.toRat`, `Numeral.toRat` — the rational numbers;
* `Numeral.toRat_value` — reading a numeral keeps its value;
* `Decimal.roundsTo_nearest` — the datum of a decimal is what its value rounds to, so that it
  depends on the value only (`Decimal.nearest_congr`).
-/

namespace LoxFront

open Binary64

namespace Decimal

/-- **The value of a decimal.** -/
def toRat (d : Decimal) : ℚ := d.coefficient * 10 ^ d.exponent

theorem toRat_nonneg (d : Decimal) : 0 ≤ d.toRat := by
  unfold toRat
  positivity

theorem denominator_pos (d : Decimal) : 0 < d.denominator := Nat.pow_pos (by decide)

theorem toRat_eq_div (d : Decimal) : d.toRat = (d.numerator : ℚ) / d.denominator := by
  obtain ⟨coefficient, exponent⟩ := d
  unfold toRat numerator denominator
  change _ = ((coefficient * 10 ^ exponent.toNat : ℕ) : ℚ) / ((10 ^ (-exponent).toNat : ℕ) : ℚ)
  push_cast
  obtain ⟨k, rfl | rfl⟩ := exponent.eq_nat_or_neg
  · rw [Int.toNat_natCast, Int.toNat_neg_natCast, pow_zero, div_one, zpow_natCast]
  · rw [Int.toNat_neg_natCast, neg_neg, Int.toNat_natCast, pow_zero, mul_one, zpow_neg,
      zpow_natCast, div_eq_mul_inv]

/-- **A decimal is rounded correctly.** -/
theorem roundsTo_nearest (d : Decimal) : RoundsTo d.toRat d.nearest := by
  rw [toRat_eq_div]
  exact Binary64.roundsTo_nearest d.numerator d.denominator_pos

/-- Only the value counts. -/
theorem nearest_congr {d e : Decimal} (h : d.toRat = e.toRat) : d.nearest = e.nearest := by
  have hd := d.roundsTo_nearest
  rw [h] at hd
  exact hd.unique e.roundsTo_nearest

/-- **The interval of a decimal** is that of the rank it is read as, if that rank is finite. -/
theorem rank_nearest_eq_iff {d : Decimal} {r : ℕ} (hr : r < infinityRank) :
    d.nearest.rank = r ↔ Rounds (d.toRat * 2 ^ unitPlaces) r := by
  obtain ⟨s, hs, hrounds⟩ := d.roundsTo_nearest.exists_rounds d.toRat_nonneg
  rw [hs, rank_ofRank]
  constructor
  · intro h
    obtain rfl : s = r := by omega
    exact hrounds
  · intro h
    obtain rfl := hrounds.unique h
    exact Nat.min_eq_left hr.le

end Decimal

/-! ### Digits -/

/-- The first digit counts most. -/
theorem ofDigitChars_cons_zero (c : Char) (cs : List Char) :
    Nat.ofDigitChars 10 (c :: cs) 0 =
      10 ^ cs.length * (c.toNat - '0'.toNat) + Nat.ofDigitChars 10 cs 0 := by
  rw [Nat.ofDigitChars_cons, Nat.ofDigitChars_eq_ofDigitChars_zero, Nat.mul_zero, Nat.zero_add]

theorem ofDigitChars_append_zero (cs ds : List Char) :
    Nat.ofDigitChars 10 (cs ++ ds) 0 =
      10 ^ ds.length * Nat.ofDigitChars 10 cs 0 + Nat.ofDigitChars 10 ds 0 := by
  rw [Nat.ofDigitChars_append, Nat.ofDigitChars_eq_ofDigitChars_zero]

namespace Numeral

/-- Digits, the first of which counts `10 ^ weight`, and each other a tenth of the one before. -/
def weigh (weight : ℤ) : List Char → ℚ
  | [] => 0
  | c :: cs => ((c.toNat - '0'.toNat : ℕ) : ℚ) * 10 ^ weight + weigh (weight - 1) cs

/-- **The value of a numeral.** The last digit before the point counts one, the first digit after it
a tenth. -/
def toRat (n : Numeral) : ℚ := weigh (n.whole.length - 1) n.whole + weigh (-1) n.fraction

/-- Digits are a whole number of the weight of the last. -/
theorem weigh_eq (weight : ℤ) (cs : List Char) :
    weigh weight cs = Nat.ofDigitChars 10 cs 0 * 10 ^ (weight + 1 - cs.length) := by
  induction cs generalizing weight with
  | nil => rw [weigh, Nat.ofDigitChars_nil, Nat.cast_zero, zero_mul]
  | cons c cs ih =>
    have hfirst : weight = weight + 1 - (c :: cs).length + (cs.length : ℕ) := by
      rw [List.length_cons]
      push_cast
      ring
    have hrest : weight - 1 + 1 - cs.length = weight + 1 - (c :: cs).length := by
      rw [List.length_cons]
      push_cast
      ring
    rw [weigh, ih, hrest, ofDigitChars_cons_zero]
    nth_rewrite 1 [hfirst]
    rw [zpow_add₀ (by norm_num), zpow_natCast]
    push_cast
    ring

/-- **Reading a numeral** keeps its value. -/
theorem toRat_value (n : Numeral) : n.value.toRat = n.toRat := by
  obtain ⟨whole, fraction⟩ := n
  change ((Nat.ofDigitChars 10 (whole ++ fraction) 0 : ℕ) : ℚ) * 10 ^ (-(fraction.length : ℤ)) =
    weigh (whole.length - 1) whole + weigh (-1) fraction
  have hwhole : (whole.length - 1 + 1 - whole.length : ℤ) = 0 := by ring
  have hfraction : (-1 + 1 - fraction.length : ℤ) = -fraction.length := by ring
  have hten : (10 : ℚ) ^ fraction.length * 10 ^ (-(fraction.length : ℤ)) = 1 := by
    rw [zpow_neg, zpow_natCast]
    exact mul_inv_cancel₀ (by positivity)
  rw [weigh_eq, weigh_eq, hwhole, hfraction, ofDigitChars_append_zero, zpow_zero, mul_one]
  push_cast
  rw [add_mul, mul_right_comm, hten, one_mul]

theorem toRat_nonneg (n : Numeral) : 0 ≤ n.toRat := by
  rw [← toRat_value]
  exact n.value.toRat_nonneg

end Numeral

end LoxFront

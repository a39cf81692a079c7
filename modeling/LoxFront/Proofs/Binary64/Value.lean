import LoxFront.Proofs.Binary64.Rounding
import Mathlib.Algebra.Order.Field.Power

/-!
# Values, and what it means to round to one

A finite datum stands for a rational number, by its three fields. Rounding a rational to the nearest
datum is a matter of these values alone.

* `value` — the value of a finite datum;
* `RoundsTo q x` — the datum `x` is what the rational `q` rounds to, half way cases to the even
  significand and too great ones to infinity;
* `Rounds.roundsTo` — it is the datum of the rank whose interval `q` is in;
* `RoundsTo.unique` — there is only one;
* `roundsTo_nearest` — correct rounding finds it;
* `RoundsTo.eq_infinity_iff`, `RoundsTo.eq_zero_iff`, `RoundsTo.exists_subnormal` — what happens at
  the ends.
-/

namespace LoxFront.Binary64

/-- **The magnitude of a finite datum**, by its exponent and its fraction. With the exponent 0 the
significand is the fraction alone, else the hidden bit stands before it. -/
def magnitude (x : Binary64) : ℚ :=
  let exponent : ℕ := x.rank / 2 ^ 52
  let fraction : ℕ := x.rank % 2 ^ 52
  if exponent = 0 then fraction * 2 ^ (-1074 : ℤ)
  else (2 ^ 52 + fraction) * 2 ^ ((exponent : ℤ) - 1075)

/-- **The value of a finite datum.** -/
def value (x : Binary64) : ℚ := if x.isNegative then -x.magnitude else x.magnitude

def infinity : Binary64 := ofRank infinityRank

/-- Half way between the greatest finite value and the power of two that would come next. -/
def overflowThreshold : ℚ := 2 ^ 1024 - 2 ^ 970

/-- **What a rational rounds to** that is not negative. -/
structure RoundsTo (q : ℚ) (x : Binary64) : Prop where
  isNegative_eq : x.isNegative = false
  overflow : overflowThreshold ≤ q → x = infinity
  isFinite_eq : q < overflowThreshold → x.isFinite = true
  /-- No finite value is nearer. -/
  nearest : q < overflowThreshold → ∀ y : Binary64, y.isFinite = true →
    |q - x.value| ≤ |q - y.value|
  /-- If another is just as near, the significand is even. -/
  even : q < overflowThreshold → ∀ y : Binary64, y.isFinite = true → y.value ≠ x.value →
    |q - y.value| = |q - x.value| → Even (significandAt x.rank)

/-! ### Values in units -/

theorem two_zpow_mul (k : ℤ) (e : ℕ) (h : k + 1074 = e) :
    (2 : ℚ) ^ k * 2 ^ unitPlaces = 2 ^ e := by
  have hplaces : ((unitPlaces : ℕ) : ℤ) = 1074 := rfl
  rw [← zpow_natCast, ← zpow_natCast, ← zpow_add₀ two_ne_zero, hplaces, h]

theorem half_unit_mul : (2 : ℚ) ^ (-1075 : ℤ) * 2 ^ unitPlaces = 1 / 2 := by
  have hexp : (2 : ℚ) ^ (-1075 : ℤ) * 2 = 2 ^ (-1074 : ℤ) := (zpow_add_one₀ two_ne_zero _).symm
  rw [eq_div_iff two_ne_zero, mul_right_comm, hexp, two_zpow_mul (-1074) 0 rfl, pow_zero]

/-- **The magnitude of a finite datum** is that of its rank, in units. -/
theorem magnitude_mul (x : Binary64) : x.magnitude * 2 ^ unitPlaces = x.units := by
  unfold magnitude units
  rw [unitsAt_eq]
  unfold significandAt doublingsAt
  rw [hiddenBit_eq]
  by_cases hexponent : x.rank / 2 ^ 52 = 0
  · have hlt : x.rank < 2 ^ 52 := Nat.lt_of_div_eq_zero (by decide) hexponent
    rw [if_pos hexponent, if_pos hlt, hexponent, Nat.mod_eq_of_lt hlt, mul_assoc,
      two_zpow_mul (-1074) 0 rfl]
    push_cast
    rfl
  · have hge : ¬ x.rank < 2 ^ 52 := fun hlt => hexponent (Nat.div_eq_of_lt hlt)
    obtain ⟨e, he⟩ := Nat.exists_eq_succ_of_ne_zero hexponent
    have hpow : ((e.succ : ℕ) : ℤ) - 1075 + 1074 = e := by
      push_cast
      ring
    rw [if_neg hexponent, if_neg hge, he, mul_assoc, two_zpow_mul _ e hpow]
    push_cast
    rfl

theorem value_of_isNegative_eq_false {x : Binary64} (hx : x.isNegative = false) :
    x.value * 2 ^ unitPlaces = x.units := by
  unfold value
  rw [hx]
  exact magnitude_mul x

theorem value_of_isNegative {x : Binary64} (hx : x.isNegative = true) :
    x.value * 2 ^ unitPlaces = -x.units := by
  unfold value
  rw [hx, if_pos rfl, neg_mul, magnitude_mul]

theorem unit_pos : (0 : ℚ) < 2 ^ unitPlaces := by positivity

/-- Distances in units. -/
theorem abs_sub_mul (q v : ℚ) :
    |q - v| * 2 ^ unitPlaces = |q * 2 ^ unitPlaces - v * 2 ^ unitPlaces| := by
  rw [← sub_mul, abs_mul, abs_of_pos unit_pos]

/-! ### The nearest magnitude -/

section Distance

variable {u a b : ℚ} (hab : a < b)

include hab

/-- The greater of two values is as near where the middle between them is reached. -/
theorem abs_sub_le_iff_add_le : |u - b| ≤ |u - a| ↔ a + b ≤ 2 * u := by
  have hsquares : (u - a) ^ 2 - (u - b) ^ 2 = (b - a) * (2 * u - (a + b)) := by ring
  rw [← sq_le_sq, ← sub_nonneg, hsquares, mul_nonneg_iff_of_pos_left (sub_pos.mpr hab), sub_nonneg]

/-- The lesser is as near where the middle is not passed. -/
theorem abs_sub_le_iff_le_add : |u - a| ≤ |u - b| ↔ 2 * u ≤ a + b := by
  have hsquares : (u - b) ^ 2 - (u - a) ^ 2 = (b - a) * (a + b - 2 * u) := by ring
  rw [← sq_le_sq, ← sub_nonneg, hsquares, mul_nonneg_iff_of_pos_left (sub_pos.mpr hab), sub_nonneg]

end Distance

/-- If the greater of two values is as near, those between them are nearer than the lesser. -/
theorem abs_sub_lt_of_between {u a b c : ℚ} (hac : a < c) (hcb : c < b)
    (hnear : |u - b| ≤ |u - a|) : |u - c| < |u - a| := by
  have hmiddle : a + b ≤ 2 * u := (abs_sub_le_iff_add_le (hac.trans hcb)).mp hnear
  rw [← not_le, abs_sub_le_iff_le_add hac, not_le]
  calc a + c
      < a + b := add_lt_add_right hcb a
    _ ≤ 2 * u := hmiddle

namespace Rounds

variable {u : ℚ} {r p : ℕ}

/-- The lesser magnitudes are on the far side of the middle. -/
theorem add_le_of_lt (h : Rounds u r) (hp : p < r) :
    (unitsAt p + unitsAt r : ℚ) ≤ 2 * u ∧ (¬ Even r → (unitsAt p + unitsAt r : ℚ) < 2 * u) := by
  obtain ⟨q, rfl⟩ := Nat.exists_eq_add_one_of_ne_zero (Nat.ne_zero_of_lt hp)
  have hmiddle : (unitsAt p + unitsAt (q + 1) : ℚ) ≤ middle q := by
    exact_mod_cast Nat.add_le_add_right (strictMono_unitsAt.monotone (Nat.le_of_lt_succ hp)) _
  have hq := Nat.lt_succ_self q
  exact ⟨hmiddle.trans (h.lower q hq), fun hodd => hmiddle.trans_lt (h.lower_lt hodd q hq)⟩

/-- The greater magnitudes are on the far side of the middle. -/
theorem le_add_of_lt (h : Rounds u r) (hp : r < p) :
    2 * u ≤ (unitsAt r + unitsAt p : ℚ) ∧ (¬ Even r → 2 * u < (unitsAt r + unitsAt p : ℚ)) := by
  have hmiddle : (middle r : ℚ) ≤ unitsAt r + unitsAt p := by
    exact_mod_cast Nat.add_le_add_left (strictMono_unitsAt.monotone hp) _
  exact ⟨h.upper.trans hmiddle, fun hodd => (h.upper_lt hodd).trans_le hmiddle⟩

/-- **No magnitude is nearer** than that of the rank. -/
theorem abs_sub_le (h : Rounds u r) (p : ℕ) : |u - unitsAt r| ≤ |u - unitsAt p| := by
  obtain hlt | rfl | hgt := lt_trichotomy p r
  · rw [abs_sub_le_iff_add_le (by exact_mod_cast strictMono_unitsAt hlt)]
    exact (h.add_le_of_lt hlt).1
  · exact le_rfl
  · rw [abs_sub_le_iff_le_add (by exact_mod_cast strictMono_unitsAt hgt)]
    exact (h.le_add_of_lt hgt).1

/-- If the rank is odd, **no other magnitude is as near**. -/
theorem abs_sub_lt (h : Rounds u r) (hodd : ¬ Even r) (hne : p ≠ r) :
    |u - unitsAt r| < |u - unitsAt p| := by
  rw [← not_le]
  obtain hlt | hgt := hne.lt_or_gt
  · rw [abs_sub_le_iff_le_add (by exact_mod_cast strictMono_unitsAt hlt), not_le]
    exact (h.add_le_of_lt hlt).2 hodd
  · rw [abs_sub_le_iff_add_le (by exact_mod_cast strictMono_unitsAt hgt), not_le]
    exact (h.le_add_of_lt hgt).2 hodd

end Rounds

/-! ### Where rounding ends -/

/-- The last middle before a power of two. -/
theorem middle_last (s : ℕ) :
    (middle (s * hiddenBit + (2 * hiddenBit - 1)) : ℚ) = 2 ^ (s + 54) - 2 ^ s := by
  have hlast : s * hiddenBit + (2 * hiddenBit - 1) + 1 = s * hiddenBit + 2 * hiddenBit := by
    unfold hiddenBit
    omega
  have hdoublings : doublingsAt (s * hiddenBit + (2 * hiddenBit - 1)) = s := by
    unfold doublingsAt hiddenBit
    omega
  have hpow : 2 * (2 * hiddenBit * 2 ^ s) = 2 ^ (s + 54) := by
    rw [hiddenBit_eq]
    ring
  have hmiddle := middle_add (s * hiddenBit + (2 * hiddenBit - 1))
  rw [hdoublings, hlast, unitsAt_grid (Or.inr (by decide)) le_rfl, hpow] at hmiddle
  rw [eq_sub_iff_add_eq]
  exact_mod_cast hmiddle

/-- **The overflow threshold** is the last middle of all. -/
theorem two_mul_overflowThreshold :
    2 * (overflowThreshold * 2 ^ unitPlaces) = (middle (infinityRank - 1) : ℚ) := by
  have hpow : ∀ a b c : ℕ,
      2 * ((2 ^ a - 2 ^ b) * 2 ^ c : ℚ) = 2 ^ (a + c + 1) - 2 ^ (b + c + 1) := by
    intro a b c
    ring
  exact (hpow 1024 970 1074).trans (middle_last 2045).symm

section Interval

variable {q : ℚ} {r : ℕ} (h : Rounds (q * 2 ^ unitPlaces) r)

include h

/-- **What rounds to infinity.** -/
theorem infinityRank_le_iff : infinityRank ≤ r ↔ overflowThreshold ≤ q := by
  have hscaled : overflowThreshold ≤ q ↔
      (middle (infinityRank - 1) : ℚ) ≤ 2 * (q * 2 ^ unitPlaces) := by
    rw [← two_mul_overflowThreshold, mul_le_mul_iff_right₀ two_pos, mul_le_mul_iff_left₀ unit_pos]
  rw [hscaled]
  constructor
  · intro hle
    exact h.lower (infinityRank - 1) (Nat.sub_one_lt_of_le (by decide) hle)
  · intro hle
    by_contra hlt
    rw [not_le] at hlt
    -- The last finite rank is odd, so that the middle above it is not in its interval.
    have hlast : r = infinityRank - 1 := by
      by_contra hne
      have hless : middle r < middle (infinityRank - 1) := strictMono_middle (by omega)
      have hless' : (middle r : ℚ) < middle (infinityRank - 1) := by exact_mod_cast hless
      linarith [h.upper]
    subst hlast
    linarith [h.upper_lt (by decide)]

/-- **What rounds to zero.** -/
theorem eq_zero_iff_le : r = 0 ↔ q ≤ 2 ^ (-1075 : ℤ) := by
  have hhalf : 2 * ((2 : ℚ) ^ (-1075 : ℤ) * 2 ^ unitPlaces) = middle 0 := by
    rw [half_unit_mul, middle_of_lt (by decide)]
    norm_num
  have hscaled : q ≤ 2 ^ (-1075 : ℤ) ↔ 2 * (q * 2 ^ unitPlaces) ≤ middle 0 := by
    rw [← hhalf, mul_le_mul_iff_right₀ two_pos, mul_le_mul_iff_left₀ unit_pos]
  rw [hscaled]
  constructor
  · rintro rfl
    exact h.upper
  · intro hle
    have hzero : Rounds (q * 2 ^ unitPlaces) 0 :=
      ⟨fun p hp => absurd hp (Nat.not_lt_zero p), hle, fun hodd => absurd Even.zero hodd,
        fun hodd => absurd Even.zero hodd⟩
    exact h.unique hzero

/-- **What rounds to a subnormal value**, or to the least normal one, is rounded to units. -/
theorem le_hiddenBit_of_lt (hq : 0 ≤ q) (hlt : q < 2 ^ (-1022 : ℤ)) :
    r ≤ hiddenBit ∧ |q * 2 ^ unitPlaces - r| ≤ 1 / 2 := by
  have hu : q * 2 ^ unitPlaces ≤ hiddenBit := by
    rw [← mul_lt_mul_iff_left₀ unit_pos, two_zpow_mul (-1022) 52 rfl] at hlt
    rw [hiddenBit_eq]
    exact_mod_cast hlt.le
  have hr : r ≤ hiddenBit := by
    have hself := Rounds.unitsAt_self hiddenBit
    rw [unitsAt_of_le (by decide)] at hself
    exact h.le_of_le hself hu
  have hr' : r < 2 * hiddenBit := hr.trans_lt (by decide)
  refine ⟨hr, ?_⟩
  have hupper := h.upper
  rw [middle_of_lt hr'] at hupper
  have hlower : (2 * r : ℚ) ≤ 2 * (q * 2 ^ unitPlaces) + 1 := by
    cases r with
    | zero =>
      have hscaled : 0 ≤ q * 2 ^ unitPlaces := mul_nonneg hq unit_pos.le
      push_cast
      linarith
    | succ p =>
      have hp := h.lower p (Nat.lt_succ_self p)
      rw [middle_of_lt (Nat.lt_of_succ_lt hr')] at hp
      push_cast at hp ⊢
      linarith
  push_cast at hupper
  rw [abs_le]
  constructor <;> linarith

end Interval

/-! ### What rounding means -/

/-- The value of a rank, in units. -/
theorem value_ofRank {r : ℕ} (hr : r < infinityRank) :
    (ofRank r).value * 2 ^ unitPlaces = unitsAt r := by
  rw [value_of_isNegative_eq_false (isNegative_ofRank r), units, rank_ofRank,
    Nat.min_eq_left hr.le]

theorem isFinite_ofRank {r : ℕ} (hr : r < infinityRank) : (ofRank r).isFinite = true := by
  rw [isFinite, rank_ofRank, Nat.min_eq_left hr.le, decide_eq_true_eq]
  exact hr

theorem isFinite_iff {x : Binary64} : x.isFinite = true ↔ x.rank < infinityRank := by
  rw [isFinite, decide_eq_true_eq]

theorem ofRank_of_le {r : ℕ} (hr : infinityRank ≤ r) : ofRank r = infinity := by
  unfold infinity ofRank
  rw [Nat.min_eq_right hr, Nat.min_self]

namespace Rounds

variable {q : ℚ} {r : ℕ}

/-- **No finite value is nearer.** The negative ones are beyond zero. -/
theorem abs_sub_le_value {u : ℚ} (h : Rounds u r) (hu : 0 ≤ u) (y : Binary64) :
    |u - unitsAt r| ≤ |u - y.value * 2 ^ unitPlaces| ∧
      (¬ Even r → y.value * 2 ^ unitPlaces ≠ unitsAt r →
        |u - unitsAt r| < |u - y.value * 2 ^ unitPlaces|) := by
  cases hy : y.isNegative with
  | false =>
    rw [value_of_isNegative_eq_false hy, units]
    refine ⟨h.abs_sub_le _, fun hodd hne => h.abs_sub_lt hodd ?_⟩
    rintro hrank
    exact hne (congrArg _ (congrArg _ hrank))
  | true =>
    have hzero : |u - unitsAt 0| ≤ |u - y.value * 2 ^ unitPlaces| := by
      have hbeyond : 0 ≤ u - -(y.units : ℚ) := by
        rw [sub_neg_eq_add]
        positivity
      have hunits : unitsAt 0 = 0 := rfl
      rw [value_of_isNegative hy, hunits, Nat.cast_zero, sub_zero, abs_of_nonneg hu,
        abs_of_nonneg hbeyond]
      linarith [Nat.cast_nonneg (α := ℚ) y.units]
    refine ⟨(h.abs_sub_le 0).trans hzero, fun hodd _ => (h.abs_sub_lt hodd ?_).trans_le hzero⟩
    rintro rfl
    exact hodd Even.zero

/-- **The datum of the rank** is what the rational rounds to. -/
theorem roundsTo (h : Rounds (q * 2 ^ unitPlaces) r) (hq : 0 ≤ q) : RoundsTo q (ofRank r) := by
  have hu : 0 ≤ q * 2 ^ unitPlaces := mul_nonneg hq unit_pos.le
  have hfinite : q < overflowThreshold → r < infinityRank := by
    intro hlt
    rwa [← not_le, infinityRank_le_iff h, not_le]
  refine ⟨isNegative_ofRank r, fun hge => ?_, fun hlt => isFinite_ofRank (hfinite hlt),
    fun hlt y _ => ?_, fun hlt y _ hne htie => ?_⟩
  · exact ofRank_of_le ((infinityRank_le_iff h).mpr hge)
  · rw [← mul_le_mul_iff_left₀ unit_pos, abs_sub_mul, abs_sub_mul, value_ofRank (hfinite hlt)]
    exact (h.abs_sub_le_value hu y).1
  · rw [even_significandAt_iff, rank_ofRank, Nat.min_eq_left (hfinite hlt).le]
    by_contra hodd
    have hstrict := (h.abs_sub_le_value hu y).2 hodd ?_
    · rw [← value_ofRank (hfinite hlt), ← abs_sub_mul, ← abs_sub_mul, htie] at hstrict
      exact lt_irrefl _ hstrict
    · rw [← value_ofRank (hfinite hlt)]
      exact fun heq => hne (mul_right_cancel₀ unit_pos.ne' heq)

end Rounds

theorem value_lt_value {x y : Binary64} (hx : x.isNegative = false) (hy : y.isNegative = false)
    (h : x.rank < y.rank) : x.value < y.value := by
  rw [← mul_lt_mul_iff_left₀ unit_pos, value_of_isNegative_eq_false hx,
    value_of_isNegative_eq_false hy]
  exact_mod_cast strictMono_unitsAt h

/-- Ranks that are not next to each other have a value between theirs. -/
theorem exists_value_between {x y : Binary64} (hx : x.isNegative = false)
    (hy : y.isNegative = false) (hfinite : y.isFinite = true) (h : x.rank + 1 < y.rank) :
    ∃ z : Binary64, z.isFinite = true ∧ x.value < z.value ∧ z.value < y.value := by
  have hlt : x.rank + 1 < infinityRank := h.trans (isFinite_iff.mp hfinite)
  have hrank : (ofRank (x.rank + 1)).rank = x.rank + 1 := by
    rw [rank_ofRank, Nat.min_eq_left hlt.le]
  refine ⟨ofRank (x.rank + 1), isFinite_ofRank hlt, ?_, ?_⟩
  · exact value_lt_value hx (isNegative_ofRank _) ((Nat.lt_succ_self _).trans_eq hrank.symm)
  · exact value_lt_value (isNegative_ofRank _) hy (hrank.trans_lt h)

/-- **A rational rounds to one datum only.** -/
theorem RoundsTo.unique {q : ℚ} {x y : Binary64} (hx : RoundsTo q x) (hy : RoundsTo q y) :
    x = y := by
  by_cases hlt : q < overflowThreshold
  · by_contra hne
    have hfx := hx.isFinite_eq hlt
    have hfy := hy.isFinite_eq hlt
    wlog hrank : x.rank < y.rank generalizing x y
    · refine this hy hx (Ne.symm hne) hfy hfx ((not_lt.mp hrank).lt_of_ne fun heq => ?_)
      exact hne (eq_of_rank_eq hx.isNegative_eq hy.isNegative_eq heq.symm)
    have htie := le_antisymm (hx.nearest hlt y hfy) (hy.nearest hlt x hfx)
    have hxy := value_lt_value hx.isNegative_eq hy.isNegative_eq hrank
    -- Both significands are even, and the value between them is nearer.
    have hex := hx.even hlt y hfy hxy.ne' htie.symm
    have hey := hy.even hlt x hfx hxy.ne htie
    rw [even_significandAt_iff, Nat.even_iff] at hex hey
    obtain ⟨z, hfz, hxz, hzy⟩ :=
      exists_value_between hx.isNegative_eq hy.isNegative_eq hfy (by omega)
    exact (abs_sub_lt_of_between hxz hzy htie.ge).not_ge (hx.nearest hlt z hfz)
  · rw [hx.overflow (not_lt.mp hlt), hy.overflow (not_lt.mp hlt)]

/-- **Correct rounding** finds what a quotient rounds to. -/
theorem roundsTo_nearest (num : ℕ) {den : ℕ} (hden : 0 < den) :
    RoundsTo ((num : ℚ) / den) (nearest num den) := by
  obtain ⟨r, hnearest, hr⟩ := exists_rounds_nearest num hden
  rw [hnearest]
  exact hr.roundsTo (by positivity)

namespace RoundsTo

variable {q : ℚ} {x : Binary64} (hq : 0 ≤ q) (h : RoundsTo q x)

include hq h

/-- What a rational rounds to is the datum of a rank, whose interval it is in. -/
theorem exists_rounds : ∃ r, x = ofRank r ∧ Rounds (q * 2 ^ unitPlaces) r := by
  obtain ⟨r, -, hr⟩ := exists_rounds_nearest q.num.natAbs q.pos
  have hquotient : (q.num.natAbs : ℚ) / q.den = q := by
    rw [Nat.cast_natAbs, abs_of_nonneg (Rat.num_nonneg.mpr hq), Rat.num_div_den]
  rw [hquotient] at hr
  exact ⟨r, h.unique (hr.roundsTo hq), hr⟩

/-- **Infinity** comes from the overflow threshold on. -/
theorem eq_infinity_iff : x = infinity ↔ overflowThreshold ≤ q := by
  obtain ⟨r, rfl, hr⟩ := h.exists_rounds hq
  rw [← infinityRank_le_iff hr]
  constructor
  · intro heq
    have hrank := congrArg rank heq
    rw [infinity, rank_ofRank, rank_ofRank, Nat.min_self] at hrank
    exact min_eq_right_iff.mp hrank
  · exact ofRank_of_le

/-- **Zero** comes up to half a unit. -/
theorem eq_zero_iff : x = ⟨0⟩ ↔ q ≤ 2 ^ (-1075 : ℤ) := by
  obtain ⟨r, rfl, hr⟩ := h.exists_rounds hq
  rw [← eq_zero_iff_le hr]
  constructor
  · intro heq
    have hrank := congrArg rank heq
    have hzero : rank ⟨0⟩ = 0 := rfl
    rw [rank_ofRank, hzero] at hrank
    unfold infinityRank at hrank
    omega
  · rintro rfl
    rfl

/-- **Below the normal values** the data are the multiples of the unit. -/
theorem exists_subnormal (hlt : q < 2 ^ (-1022 : ℤ)) :
    ∃ k : ℕ, x.value = k * 2 ^ (-1074 : ℤ) ∧ |q - x.value| ≤ 2 ^ (-1075 : ℤ) := by
  obtain ⟨r, rfl, hr⟩ := h.exists_rounds hq
  obtain ⟨hle, hdistance⟩ := le_hiddenBit_of_lt hr hq hlt
  have hunits : (ofRank r).value * 2 ^ unitPlaces = r := by
    rw [value_ofRank (hle.trans_lt (by decide)), unitsAt_of_le (hle.trans (by decide))]
  refine ⟨r, ?_, ?_⟩
  · rw [← mul_left_inj' unit_pos.ne', hunits, mul_assoc, two_zpow_mul (-1074) 0 rfl]
    ring
  · rw [← mul_le_mul_iff_left₀ unit_pos, abs_sub_mul, hunits, half_unit_mul]
    exact hdistance

end RoundsTo

end LoxFront.Binary64

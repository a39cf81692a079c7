import LoxFront.Proofs.Binary64.Ranks
import Mathlib.Algebra.Order.Field.Basic
import Mathlib.Data.Rat.Cast.Order
import Mathlib.Tactic.Linarith
import Mathlib.Tactic.Positivity

/-!
# Rounding intervals

Rounding to the nearest datum divides the magnitudes into intervals, one for each rank. An interval
reaches to the middles between the magnitude of its rank and the next ones, and the middles belong
to the even ranks.

* `roundHalfEven_bounds` — the law of rounding a quotient to an integer, which so does not pass whole
  numbers (`roundHalfEven_le`, `le_roundHalfEven`);
* `Rounds u r` — the magnitude `u`, in units, is in the interval of the rank `r`;
* `Rounds.unique`, `Rounds.convex` — the intervals are apart, and they are intervals;
* `exists_rounds_nearest` — correct rounding goes by them, up to the rank of infinity.
-/

namespace LoxFront

/-- **Rounding a quotient.** The result is at most a half away, and even where it is just that. -/
theorem roundHalfEven_bounds (num : ℕ) {den : ℕ} (hden : 0 < den) :
    2 * num ≤ (2 * roundHalfEven num den + 1) * den ∧
      2 * roundHalfEven num den * den ≤ 2 * num + den ∧
      (¬ Even (roundHalfEven num den) →
        2 * num < (2 * roundHalfEven num den + 1) * den ∧
          2 * roundHalfEven num den * den < 2 * num + den) := by
  have hsplit := Nat.div_add_mod num den
  have hmod := Nat.mod_lt num hden
  unfold roundHalfEven
  generalize num / den = quotient at *
  generalize num % den = rest at *
  have hbelow : (2 * quotient + 1) * den = 2 * (den * quotient) + den := by ring
  have hbelow' : 2 * quotient * den = 2 * (den * quotient) := by ring
  have habove : (2 * (quotient + 1) + 1) * den = 2 * (den * quotient) + 3 * den := by ring
  have habove' : 2 * (quotient + 1) * den = 2 * (den * quotient) + 2 * den := by ring
  simp only []
  split
  · rw [hbelow, hbelow', Nat.even_iff]
    omega
  · rw [habove, habove', Nat.even_iff]
    omega

/-- **Rounding does not pass whole numbers.** -/
theorem roundHalfEven_le {num den k : ℕ} (hden : 0 < den) (h : num ≤ k * den) :
    roundHalfEven num den ≤ k := by
  obtain ⟨-, hlower, -⟩ := roundHalfEven_bounds num hden
  have hle : 2 * roundHalfEven num den * den ≤ (2 * k + 1) * den := by
    calc 2 * roundHalfEven num den * den
        ≤ 2 * num + den := hlower
      _ ≤ 2 * (k * den) + den := by omega
      _ = (2 * k + 1) * den := by ring
  have hrounded := Nat.le_of_mul_le_mul_right hle hden
  omega

theorem le_roundHalfEven {num den k : ℕ} (hden : 0 < den) (h : k * den ≤ num) :
    k ≤ roundHalfEven num den := by
  obtain ⟨hupper, -, -⟩ := roundHalfEven_bounds num hden
  have hle : 2 * k * den ≤ (2 * roundHalfEven num den + 1) * den := by
    calc 2 * k * den
        = 2 * (k * den) := Nat.mul_assoc ..
      _ ≤ 2 * num := Nat.mul_le_mul_left 2 h
      _ ≤ (2 * roundHalfEven num den + 1) * den := hupper
  have hrounded := Nat.le_of_mul_le_mul_right hle hden
  omega

namespace Binary64

/-! ### The intervals -/

/-- Twice the middle between the magnitude of a rank and the next. -/
def middle (r : ℕ) : ℕ := unitsAt r + unitsAt (r + 1)

theorem strictMono_middle : StrictMono middle := by
  intro r s h
  exact Nat.add_lt_add (strictMono_unitsAt h) (strictMono_unitsAt (Nat.succ_lt_succ h))

theorem middle_eq (r : ℕ) : middle r = 2 * unitsAt r + 2 ^ doublingsAt r := by
  rw [middle, unitsAt_succ]
  ring

theorem middle_add (r : ℕ) : middle r + 2 ^ doublingsAt r = 2 * unitsAt (r + 1) := by
  rw [middle, unitsAt_succ]
  ring

theorem middle_of_lt {r : ℕ} (h : r < 2 * hiddenBit) : middle r = 2 * r + 1 := by
  rw [middle, unitsAt_of_le h.le, unitsAt_of_le h]
  omega

/-- **The rounding interval of a rank**: from the last middle below it to the first above it. These
two belong to it if the rank is even. -/
structure Rounds (u : ℚ) (r : ℕ) : Prop where
  lower : ∀ p < r, (middle p : ℚ) ≤ 2 * u
  upper : 2 * u ≤ middle r
  lower_lt : ¬ Even r → ∀ p < r, (middle p : ℚ) < 2 * u
  upper_lt : ¬ Even r → 2 * u < middle r

namespace Rounds

variable {u v w : ℚ} {r s : ℕ}

/-- **What lies between** two magnitudes of an interval is in it. -/
theorem convex (hu : Rounds u r) (hw : Rounds w r) (huv : u ≤ v) (hvw : v ≤ w) : Rounds v r where
  lower p hp := by linarith [hu.lower p hp]
  upper := by linarith [hw.upper]
  lower_lt hodd p hp := by linarith [hu.lower_lt hodd p hp]
  upper_lt hodd := by linarith [hw.upper_lt hodd]

/-- Greater magnitudes do not round to lesser ranks. -/
theorem le_of_le (hu : Rounds u r) (hv : Rounds v s) (huv : u ≤ v) : r ≤ s := by
  by_contra hlt
  rw [not_le] at hlt
  have hlower := hu.lower s hlt
  have hupper := hv.upper
  -- Only the middle above `s` is left, so both ranks are even, and there is one between them.
  have hr : Even r := by
    by_contra hodd
    linarith [hu.lower_lt hodd s hlt]
  have hs : Even s := by
    by_contra hodd
    linarith [hv.upper_lt hodd]
  have hnext : s + 1 < r := by
    rw [Nat.even_iff] at hr hs
    omega
  have hmiddle : (middle s : ℚ) < middle (s + 1) := by
    exact_mod_cast strictMono_middle (Nat.lt_succ_self s)
  linarith [hu.lower (s + 1) hnext]

/-- **The intervals are apart.** -/
theorem unique (hr : Rounds u r) (hs : Rounds u s) : r = s :=
  le_antisymm (hr.le_of_le hs le_rfl) (hs.le_of_le hr le_rfl)

/-- The magnitude of a rank rounds to it. -/
theorem unitsAt_self (r : ℕ) : Rounds (unitsAt r) r := by
  have hlower : ∀ p < r, (middle p : ℚ) < 2 * unitsAt r := by
    intro p hp
    have hp' : middle p < 2 * unitsAt r := by
      have hlast : unitsAt (p + 1) ≤ unitsAt r := strictMono_unitsAt.monotone hp
      have hfirst : unitsAt p < unitsAt r := strictMono_unitsAt hp
      unfold middle
      omega
    exact_mod_cast hp'
  have hupper : 2 * (unitsAt r : ℚ) < middle r := by
    have hnext : 2 * unitsAt r < middle r := by
      have hsucc : unitsAt r < unitsAt (r + 1) := strictMono_unitsAt (Nat.lt_succ_self r)
      unfold middle
      omega
    exact_mod_cast hnext
  exact ⟨fun p hp => (hlower p hp).le, hupper.le, fun _ => hlower, fun _ => hupper⟩

end Rounds

/-! ### Rounding on a grid -/

/-- Of the ranks below only the last matters. -/
theorem rounds_of_pred {u : ℚ} {r : ℕ}
    (hlower : ∀ p, p + 1 = r → (middle p : ℚ) ≤ 2 * u ∧ (¬ Even r → (middle p : ℚ) < 2 * u))
    (hupper : 2 * u ≤ middle r ∧ (¬ Even r → 2 * u < middle r)) : Rounds u r := by
  have hlast : ∀ p < r, ∃ p', p' + 1 = r ∧ (middle p : ℚ) ≤ middle p' := by
    intro p hp
    obtain ⟨p', hp'⟩ := Nat.exists_eq_succ_of_ne_zero (Nat.ne_zero_of_lt hp)
    refine ⟨p', hp'.symm, ?_⟩
    exact_mod_cast strictMono_middle.monotone (by omega)
  refine ⟨fun p hp => ?_, hupper.1, fun hodd p hp => ?_, hupper.2⟩
  · obtain ⟨p', hp', hle⟩ := hlast p hp
    exact hle.trans (hlower p' hp').1
  · obtain ⟨p', hp', hle⟩ := hlast p hp
    exact hle.trans_lt ((hlower p' hp').2 hodd)

section Grid

variable {s m : ℕ} (hlow : s = 0 ∨ hiddenBit ≤ m) (hhigh : m ≤ 2 * hiddenBit)

include hlow hhigh

/-- Above a grid point the grid goes on, or becomes coarser. -/
theorem le_middle_grid : (2 * m + 1) * 2 ^ s ≤ middle (s * hiddenBit + m) := by
  have hdoublings : s ≤ doublingsAt (s * hiddenBit + m) := by
    obtain rfl | hm := hlow
    · exact Nat.zero_le _
    · exact le_doublingsAt (Nat.add_le_add_left hm _)
  calc (2 * m + 1) * 2 ^ s
      = 2 * (m * 2 ^ s) + 2 ^ s := by ring
    _ ≤ 2 * (m * 2 ^ s) + 2 ^ doublingsAt (s * hiddenBit + m) :=
      Nat.add_le_add_left (Nat.pow_le_pow_right two_pos hdoublings) _
    _ = middle (s * hiddenBit + m) := by rw [middle_eq, unitsAt_grid hlow hhigh]

/-- Below a grid point the grid goes on, unless this is the first point and there is a finer grid
below. -/
theorem middle_grid_le {p : ℕ} (hp : p + 1 = s * hiddenBit + m) :
    middle p + 2 ^ s ≤ 2 * m * 2 ^ s ∨
      s ≠ 0 ∧ m = hiddenBit ∧ middle p < 2 * (hiddenBit * 2 ^ s) := by
  have hmiddle : middle p + 2 ^ doublingsAt p = 2 * m * 2 ^ s := by
    rw [middle_add, hp, unitsAt_grid hlow hhigh, Nat.mul_assoc]
  by_cases hdoublings : s ≤ doublingsAt p
  · left
    rw [← hmiddle]
    exact Nat.add_le_add_left (Nat.pow_le_pow_right two_pos hdoublings) _
  · right
    have hs : s ≠ 0 := by
      rintro rfl
      exact hdoublings (Nat.zero_le _)
    have hfirst : m = hiddenBit := by
      by_contra hne
      have hm := hlow.resolve_left hs
      exact hdoublings (le_doublingsAt (by omega))
    have hpos : 0 < 2 ^ doublingsAt p := Nat.two_pow_pos _
    rw [hfirst, Nat.mul_assoc] at hmiddle
    exact ⟨hs, hfirst, by omega⟩

/-- **The nearest point of a grid** is the nearest of all magnitudes to `u`, if `u` is not below the
grid. -/
theorem rounds_grid {u : ℚ} (hfine : s = 0 ∨ (hiddenBit * 2 ^ s : ℚ) ≤ u)
    (hupper : 2 * u ≤ (2 * m + 1) * 2 ^ s) (hlower : 2 * m * 2 ^ s ≤ 2 * u + 2 ^ s)
    (hstrict : ¬ Even m → 2 * u < (2 * m + 1) * 2 ^ s ∧ 2 * m * 2 ^ s < 2 * u + 2 ^ s) :
    Rounds u (s * hiddenBit + m) := by
  have heven : ¬ Even (s * hiddenBit + m) → ¬ Even m := by
    rw [Nat.even_iff, Nat.even_iff]
    unfold hiddenBit
    omega
  have habove : ((2 * m + 1) * 2 ^ s : ℚ) ≤ middle (s * hiddenBit + m) := by
    exact_mod_cast le_middle_grid hlow hhigh
  refine rounds_of_pred (fun p hp => ?_)
    ⟨hupper.trans habove, fun hodd => (hstrict (heven hodd)).1.trans_le habove⟩
  obtain hgrid | ⟨hs, -, hfirst⟩ := middle_grid_le hlow hhigh hp
  · have hgrid' : (middle p + 2 ^ s : ℚ) ≤ 2 * m * 2 ^ s := by exact_mod_cast hgrid
    refine ⟨by linarith, fun hodd => ?_⟩
    linarith [(hstrict (heven hodd)).2]
  · have hfirst' : (middle p : ℚ) < 2 * (hiddenBit * 2 ^ s) := by exact_mod_cast hfirst
    have hu := hfine.resolve_left hs
    exact ⟨by linarith, fun _ => by linarith⟩

end Grid

/-! ### Correct rounding -/

/-- The binary digits of a whole number that do not fit a significand. -/
theorem excessBits_bounds (units : ℕ) :
    units < 2 * hiddenBit * 2 ^ excessBits units ∧
      (excessBits units = 0 ∨ hiddenBit * 2 ^ excessBits units ≤ units) := by
  have hlt : units < 2 ^ (units.log2 + 1) := Nat.lt_log2_self
  unfold excessBits
  rw [hiddenBit_eq, ← pow_succ', ← pow_add, ← pow_add]
  constructor
  · exact hlt.trans_le (Nat.pow_le_pow_right two_pos (by omega))
  · by_cases hle : units.log2 ≤ 52
    · exact Or.inl (Nat.sub_eq_zero_of_le hle)
    · right
      have hne : units ≠ 0 := by
        rintro rfl
        exact hle (Nat.zero_le _)
      rw [Nat.add_sub_of_le (Nat.le_of_not_le hle)]
      exact Nat.log2_self_le hne

/-- **Correct rounding goes by the intervals**, and ends at infinity. -/
theorem exists_rounds_nearest (num : ℕ) {den : ℕ} (hden : 0 < den) :
    ∃ r, nearest num den = ofRank r ∧ Rounds ((num : ℚ) / den * 2 ^ unitPlaces) r := by
  refine ⟨_, rfl, ?_⟩
  rw [Nat.shiftLeft_eq, Nat.shiftLeft_eq]
  have hu : (num : ℚ) / den * 2 ^ unitPlaces = (num * 2 ^ unitPlaces : ℕ) / den := by
    push_cast
    ring
  rw [hu]
  generalize num * 2 ^ unitPlaces = scaled
  obtain ⟨hlt, hge⟩ := excessBits_bounds (scaled / den)
  generalize excessBits (scaled / den) = s at *
  have hscale : 0 < den * 2 ^ s := Nat.mul_pos hden (Nat.two_pow_pos s)
  rw [Nat.div_lt_iff_lt_mul hden, Nat.mul_assoc, Nat.mul_comm (2 ^ s)] at hlt
  rw [Nat.le_div_iff_mul_le hden, Nat.mul_assoc, Nat.mul_comm (2 ^ s)] at hge
  -- The bounds on the quotient are bounds on the rounded significand.
  have hhigh := roundHalfEven_le hscale hlt.le
  have hlow := hge.imp_right (le_roundHalfEven hscale)
  obtain ⟨hupper, hlower, hstrict⟩ := roundHalfEven_bounds scaled hscale
  generalize roundHalfEven scaled (den * 2 ^ s) = m at *
  -- The same bounds over the rationals, with the denominator divided out.
  have hdenq : (0 : ℚ) < den := by exact_mod_cast hden
  rw [Nat.mul_comm den, ← Nat.mul_assoc] at hupper hlower
  rw [Nat.mul_comm den, ← Nat.mul_assoc, ← Nat.mul_assoc] at hstrict
  refine rounds_grid hlow hhigh ?_ ?_ ?_ fun hodd => ⟨?_, ?_⟩
  · refine hge.imp_right fun hge => ?_
    rw [le_div_iff₀ hdenq, mul_assoc, mul_comm (2 ^ s)]
    exact_mod_cast hge
  · rw [← mul_div_assoc, div_le_iff₀ hdenq]
    exact_mod_cast hupper
  · rw [← mul_div_assoc, ← sub_le_iff_le_add, le_div_iff₀ hdenq, sub_mul, sub_le_iff_le_add]
    exact_mod_cast hlower
  · rw [← mul_div_assoc, div_lt_iff₀ hdenq]
    exact_mod_cast (hstrict hodd).1
  · rw [← mul_div_assoc, ← sub_lt_iff_lt_add, lt_div_iff₀ hdenq, sub_mul, sub_lt_iff_lt_add]
    exact_mod_cast (hstrict hodd).2

end Binary64

end LoxFront

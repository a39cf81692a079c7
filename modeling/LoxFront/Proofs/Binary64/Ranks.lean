import LoxFront.Binary64.Nearest
import Mathlib.Algebra.Order.Ring.Nat
import Mathlib.Order.Monotone.Basic
import Mathlib.Tactic.Ring

/-!
# Ranks and magnitudes

The ranks of the data with a clear sign bit are ordered as their magnitudes. Between two powers of
two the magnitudes lie on a grid, and the ranks count its points.

* `unitsAt_grid` — the magnitude of the `k`-th point of the grid with spacing `2 ^ s`;
* `unitsAt_succ` — the step from one magnitude to the next;
* `strictMono_unitsAt` — so the order is the same;
* `eq_of_rank_eq` — a datum with a clear sign bit is given by its rank;
* `beq_iff_eq_of_isNegative` — so two such data compare equal only if they are the same.
-/

namespace LoxFront.Binary64

theorem hiddenBit_eq : hiddenBit = 2 ^ 52 := by decide

/-! ### Magnitudes -/

/-- A rank counts `2 ^ 52` for each doubling, and the significand. -/
theorem doublingsAt_mul_add_significandAt (r : ℕ) :
    doublingsAt r * hiddenBit + significandAt r = r := by
  unfold doublingsAt significandAt hiddenBit
  split <;> omega

theorem significandAt_lt (r : ℕ) : significandAt r < 2 * hiddenBit := by
  unfold significandAt hiddenBit
  split <;> omega

/-- Only the significands that are not doubled may lack the hidden bit. -/
theorem doublingsAt_eq_zero_or (r : ℕ) : doublingsAt r = 0 ∨ hiddenBit ≤ significandAt r := by
  unfold doublingsAt significandAt hiddenBit
  split <;> omega

theorem unitsAt_eq (r : ℕ) : unitsAt r = significandAt r * 2 ^ doublingsAt r := Nat.shiftLeft_eq ..

/-- **The grid of a binade.** With `s` doublings the ranks count multiples of `2 ^ s`, up to the
first of the next binade. -/
theorem unitsAt_grid {s k : ℕ} (hlow : s = 0 ∨ hiddenBit ≤ k) (hhigh : k ≤ 2 * hiddenBit) :
    unitsAt (s * hiddenBit + k) = k * 2 ^ s := by
  obtain hlt | rfl := hhigh.lt_or_eq
  · have hsignificand : significandAt (s * hiddenBit + k) = k := by
      unfold significandAt
      unfold hiddenBit at *
      split <;> omega
    have hdoublings : doublingsAt (s * hiddenBit + k) = s := by
      unfold doublingsAt
      unfold hiddenBit at *
      omega
    rw [unitsAt_eq, hsignificand, hdoublings]
  · -- The end of the grid is the hidden bit alone, doubled once more.
    have hsignificand : significandAt (s * hiddenBit + 2 * hiddenBit) = hiddenBit := by
      unfold significandAt hiddenBit
      split <;> omega
    have hdoublings : doublingsAt (s * hiddenBit + 2 * hiddenBit) = s + 1 := by
      unfold doublingsAt hiddenBit
      omega
    rw [unitsAt_eq, hsignificand, hdoublings]
    ring

/-- **On the finest grid** a rank is its own magnitude. -/
theorem unitsAt_of_le {r : ℕ} (h : r ≤ 2 * hiddenBit) : unitsAt r = r := by
  have hgrid := unitsAt_grid (s := 0) (Or.inl rfl) h
  rwa [Nat.zero_mul, Nat.zero_add, Nat.pow_zero, Nat.mul_one] at hgrid

/-- **The next magnitude** is one grid point further. -/
theorem unitsAt_succ (r : ℕ) : unitsAt (r + 1) = unitsAt r + 2 ^ doublingsAt r := by
  have hnext : r + 1 = doublingsAt r * hiddenBit + (significandAt r + 1) := by
    rw [← Nat.add_assoc, doublingsAt_mul_add_significandAt]
  have hlow : doublingsAt r = 0 ∨ hiddenBit ≤ significandAt r + 1 :=
    (doublingsAt_eq_zero_or r).imp_right Nat.le_succ_of_le
  rw [hnext, unitsAt_grid hlow (significandAt_lt r), unitsAt_eq]
  ring

theorem strictMono_unitsAt : StrictMono unitsAt := by
  apply strictMono_nat_of_lt_succ
  intro r
  rw [unitsAt_succ]
  exact Nat.lt_add_of_pos_right (Nat.two_pow_pos _)

/-- **The exponent grows with the rank.** -/
theorem le_doublingsAt {s r : ℕ} (h : s * hiddenBit + hiddenBit ≤ r) : s ≤ doublingsAt r := by
  unfold doublingsAt
  unfold hiddenBit at *
  omega

/-- The parity of a significand is that of the rank. -/
theorem even_significandAt_iff (r : ℕ) : Even (significandAt r) ↔ Even r := by
  rw [Nat.even_iff, Nat.even_iff]
  unfold significandAt hiddenBit
  split <;> omega

/-! ### Data with a clear sign bit -/

theorem isNegative_eq_false_iff {x : Binary64} : x.isNegative = false ↔ x.bits.toNat = x.rank := by
  have hbits : x.bits.toNat < 2 ^ 64 := x.bits.toNat_lt
  unfold isNegative rank signBit
  rw [decide_eq_false_iff_not]
  omega

/-- **The rank determines the datum** once the sign bit is clear. -/
theorem eq_of_rank_eq {x y : Binary64} (hx : x.isNegative = false) (hy : y.isNegative = false)
    (h : x.rank = y.rank) : x = y := by
  rw [isNegative_eq_false_iff] at hx hy
  have hbits : x.bits = y.bits := UInt64.toNat.inj (hx.trans (h.trans hy.symm))
  cases x
  cases y
  exact congrArg Binary64.mk hbits

@[simp] theorem isNegative_ofRank (r : ℕ) : (ofRank r).isNegative = false := by
  have hle : min r infinityRank ≤ infinityRank := Nat.min_le_right ..
  rw [isNegative_eq_false_iff, rank_ofRank]
  simp only [ofRank, UInt64.toNat_ofNat']
  unfold infinityRank at *
  omega

@[simp] theorem isNaN_ofRank (r : ℕ) : (ofRank r).isNaN = false := by
  unfold isNaN
  rw [rank_ofRank, decide_eq_false_iff_not, Nat.not_lt]
  exact Nat.min_le_right ..

@[simp] theorem isNegative_nearest (num den : ℕ) : (nearest num den).isNegative = false :=
  isNegative_ofRank _

@[simp] theorem isNaN_nearest (num den : ℕ) : (nearest num den).isNaN = false := isNaN_ofRank _

/-- What is compared without NaN among it and with clear sign bits is equal only if it is the same
datum. -/
theorem beq_iff_eq_of_isNegative {x y : Binary64} (hx : x.isNegative = false)
    (hy : y.isNegative = false) (hnan : x.isNaN = false) : (x == y) = true ↔ x = y := by
  constructor
  · intro h
    rw [beq_def, hnan] at h
    simp only [Bool.not_false, Bool.true_and, Bool.and_eq_true, Bool.or_eq_true, beq_iff_eq] at h
    obtain ⟨-, hbits | ⟨hzero, hzero'⟩⟩ := h
    · cases x
      cases y
      exact congrArg Binary64.mk hbits
    · exact eq_of_rank_eq hx hy (hzero.trans hzero'.symm)
  · rintro rfl
    rw [beq_def, hnan]
    simp

end LoxFront.Binary64

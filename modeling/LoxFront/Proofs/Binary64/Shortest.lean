import LoxFront.Binary64.Shortest
import LoxFront.Proofs.Decimal.Value

/-!
# The shortest decimal is the shortest

The search for the shortest decimal of a datum ends with a decimal that is read back as the datum.
No other such decimal has a greater exponent, and from that it follows that none has fewer digits.

* `ReadsBack.convex` — what lies between two decimals that are read back is read back;
* `readsBack_exact` — the grid of all digits holds the datum itself;
* `onGrid?_isSome` — a grid with any point that is read back has a neighbour of the datum that is;
* `readsBack_shortest`, `exponent_le_shortest` — the search succeeds, on the coarsest grid there is;
* `coefficient_shortest_lt` — so no decimal that is read back has fewer digits.
-/

namespace LoxFront.Binary64

/-! ### The points of a grid -/

/-- A grid point in steps of the finest grid. -/
theorem toRat_gridPoint (x : Binary64) (c n : ℕ) :
    (x.gridPoint c n).toRat = ((c * 10 ^ n : ℕ) : ℚ) * 10 ^ (-x.places : ℤ) := by
  unfold gridPoint Decimal.toRat
  rw [sub_eq_add_neg, zpow_add₀ (by norm_num), zpow_natCast]
  push_cast
  ring

theorem gridPoint_le_iff (x : Binary64) {a m b n : ℕ} :
    (x.gridPoint a m).toRat ≤ (x.gridPoint b n).toRat ↔ a * 10 ^ m ≤ b * 10 ^ n := by
  rw [toRat_gridPoint, toRat_gridPoint, mul_le_mul_iff_left₀ (by positivity), Nat.cast_le]

/-- **The steps of a datum** are its magnitude. -/
theorem toRat_steps (x : Binary64) :
    (x.gridPoint x.steps 0).toRat * 2 ^ unitPlaces = x.units := by
  have hsteps : x.steps * 2 ^ unitPlaces = x.units * 10 ^ x.places := by
    have hexponents : doublingsAt x.rank - unitPlaces + unitPlaces =
        doublingsAt x.rank + x.places := by
      unfold places
      omega
    have hfive : Nat.pow 5 x.places = 5 ^ x.places := rfl
    have hten : 10 ^ x.places = 2 ^ x.places * 5 ^ x.places := (mul_pow 2 5 x.places)
    calc x.steps * 2 ^ unitPlaces
        = significandAt x.rank * 5 ^ x.places *
            2 ^ (doublingsAt x.rank - unitPlaces + unitPlaces) := by
          rw [steps, Nat.shiftLeft_eq, hfive, Nat.mul_assoc _ (2 ^ _), pow_add]
      _ = x.units * 10 ^ x.places := by
          rw [hexponents, pow_add, units, unitsAt_eq, hten]
          ring
  have hcast : (x.steps * 2 ^ unitPlaces : ℚ) = x.units * 10 ^ x.places := by exact_mod_cast hsteps
  rw [toRat_gridPoint, pow_zero, Nat.mul_one, mul_right_comm, hcast, zpow_neg, zpow_natCast]
  exact mul_inv_cancel_right₀ (by positivity) _

variable {x : Binary64} (hfinite : x.isFinite = true)

include hfinite

theorem readsBack_iff {d : Decimal} :
    x.ReadsBack d ↔ Rounds (d.toRat * 2 ^ unitPlaces) x.rank :=
  Decimal.rank_nearest_eq_iff (isFinite_iff.mp hfinite)

/-- **What lies between** two decimals that are read back is read back. -/
theorem ReadsBack.convex {a b d : Decimal} (ha : x.ReadsBack a) (hb : x.ReadsBack b)
    (had : a.toRat ≤ d.toRat) (hdb : d.toRat ≤ b.toRat) : x.ReadsBack d := by
  rw [readsBack_iff hfinite] at *
  exact ha.convex hb (mul_le_mul_of_nonneg_right had unit_pos.le)
    (mul_le_mul_of_nonneg_right hdb unit_pos.le)

/-- **The finest grid** holds the datum itself. -/
theorem readsBack_exact : x.ReadsBack (x.gridPoint x.steps 0) := by
  rw [readsBack_iff hfinite, toRat_steps]
  exact Rounds.unitsAt_self x.rank

/-- One of the neighbours on a grid is read back if any point of it is. -/
theorem readsBack_neighbour {c n : ℕ} (h : x.ReadsBack (x.gridPoint c n)) :
    x.ReadsBack (x.gridPoint (x.steps / 10 ^ n) n) ∨
      x.ReadsBack (x.gridPoint (x.steps / 10 ^ n + 1) n) := by
  have hpow : 0 < 10 ^ n := Nat.pow_pos (by decide)
  have hexact := readsBack_exact hfinite
  by_cases hle : c * 10 ^ n ≤ x.steps
  · left
    refine h.convex hfinite hexact ?_ ?_
    · rw [gridPoint_le_iff]
      exact Nat.mul_le_mul_right _ ((Nat.le_div_iff_mul_le hpow).mpr hle)
    · rw [gridPoint_le_iff, pow_zero, Nat.mul_one]
      exact Nat.div_mul_le_self _ _
  · right
    refine hexact.convex hfinite h ?_ ?_
    · rw [gridPoint_le_iff, pow_zero, Nat.mul_one, Nat.mul_comm]
      exact (Nat.lt_mul_div_succ x.steps hpow).le
    · rw [gridPoint_le_iff]
      exact Nat.mul_le_mul_right _ ((Nat.div_lt_iff_lt_mul hpow).mpr (not_le.mp hle))

/-- **A grid is tested completely**: if any point of it is read back, one is found. -/
theorem onGrid?_isSome {c n : ℕ} (h : x.ReadsBack (x.gridPoint c n)) : (x.onGrid? n).isSome := by
  have hneighbour := readsBack_neighbour hfinite h
  have hpow : Nat.pow 10 n = 10 ^ n := rfl
  unfold onGrid?
  simp only [hpow]
  split
  · split <;> rfl
  · next hbelow =>
    rw [if_pos (hneighbour.resolve_left hbelow)]
    rfl

omit hfinite in
/-- What is found on a grid is a point of it that is read back. -/
theorem exists_of_onGrid? {n : ℕ} {d : Decimal} (h : x.onGrid? n = some d) :
    ∃ c, d = x.gridPoint c n ∧ x.ReadsBack d := by
  unfold onGrid? at h
  simp only [] at h
  split at h
  · next hbelow =>
    split at h
    · next habove =>
      obtain rfl := Option.some.inj h
      exact ⟨_, rfl, habove.2⟩
    · obtain rfl := Option.some.inj h
      exact ⟨_, rfl, hbelow⟩
  · split at h
    · next habove =>
      obtain rfl := Option.some.inj h
      exact ⟨_, rfl, habove⟩
    · cases h

/-- **The walk** ends on the coarsest grid up to `k` that has a point that is read back. -/
theorem exists_of_coarsestUpTo (k : ℕ) :
    ∃ c n, x.coarsestUpTo k = x.gridPoint c n ∧ x.ReadsBack (x.gridPoint c n) ∧
      ∀ m ≤ k, ∀ b, x.ReadsBack (x.gridPoint b m) → m ≤ n := by
  induction k with
  | zero => exact ⟨x.steps, 0, rfl, readsBack_exact hfinite, fun m hm _ _ => hm⟩
  | succ k ih =>
    cases hgrid : x.onGrid? (k + 1) with
    | some d =>
      obtain ⟨c, rfl, hd⟩ := exists_of_onGrid? hgrid
      refine ⟨c, k + 1, ?_, hd, fun m hm _ _ => hm⟩
      rw [coarsestUpTo, hgrid, Option.getD_some]
    | none =>
      obtain ⟨c, n, hc, hread, hcoarsest⟩ := ih
      refine ⟨c, n, ?_, hread, fun m hm b hb => ?_⟩
      · rw [coarsestUpTo, hgrid, Option.getD_none, hc]
      · have hne : m ≠ k + 1 := by
          rintro rfl
          have hsome := onGrid?_isSome hfinite hb
          rw [hgrid] at hsome
          cases hsome
        exact hcoarsest m (by omega) b hb

/-! ### Where the walk begins -/

section Positive

variable (hpos : x.rank ≠ 0)

include hpos

/-- Zero is not read as another datum. -/
theorem coefficient_ne_zero {d : Decimal} (h : x.ReadsBack d) : d.coefficient ≠ 0 := by
  intro hzero
  rw [readsBack_iff hfinite, Decimal.toRat, hzero, Nat.cast_zero, zero_mul, zero_mul] at h
  have hself := Rounds.unitsAt_self 0
  rw [unitsAt_of_le (Nat.zero_le _), Nat.cast_zero] at hself
  exact hpos (h.unique hself)

/-- What is read back is no more than half as great again. -/
theorem two_mul_le_of_readsBack {c n : ℕ} (h : x.ReadsBack (x.gridPoint c n)) :
    2 * (c * 10 ^ n) ≤ 3 * x.steps := by
  have hmiddle : middle x.rank ≤ 3 * x.units := by
    have hsignificand : 1 ≤ significandAt x.rank := by
      unfold significandAt
      unfold hiddenBit
      split <;> omega
    have hunits : 2 ^ doublingsAt x.rank ≤ x.units := by
      rw [units, unitsAt_eq]
      exact Nat.le_mul_of_pos_left _ hsignificand
    rw [middle_eq]
    unfold units at *
    omega
  have hupper := ((readsBack_iff hfinite).mp h).upper
  have hmiddle' : (middle x.rank : ℚ) ≤ 3 * x.units := by exact_mod_cast hmiddle
  rw [← toRat_steps, toRat_gridPoint, pow_zero, Nat.mul_one] at hmiddle'
  rw [toRat_gridPoint] at hupper
  have hstep : (0 : ℚ) < 10 ^ (-x.places : ℤ) * 2 ^ unitPlaces := by positivity
  have hcast : (2 * (c * 10 ^ n : ℕ) : ℚ) ≤ 3 * x.steps := by
    rw [← mul_le_mul_iff_left₀ hstep]
    linarith
  exact_mod_cast hcast

/-- **The walk begins beyond** all points that are read back. -/
theorem le_length_of_readsBack {c n : ℕ} (h : x.ReadsBack (x.gridPoint c n)) :
    n ≤ (Nat.toDigits 10 x.steps).length := by
  have hbound := two_mul_le_of_readsBack hfinite hpos h
  have hc : 0 < c := Nat.pos_of_ne_zero (coefficient_ne_zero hfinite hpos h)
  by_contra hlt
  rw [not_le] at hlt
  have hsteps : x.steps < 10 ^ (Nat.toDigits 10 x.steps).length :=
    (Nat.length_toDigits_le_iff (by decide) Nat.length_toDigits_pos).mp le_rfl
  have hgrid : 10 ^ (Nat.toDigits 10 x.steps).length * 10 ≤ c * 10 ^ n := by
    calc 10 ^ (Nat.toDigits 10 x.steps).length * 10
        = 10 ^ ((Nat.toDigits 10 x.steps).length + 1) := (pow_succ _ _).symm
      _ ≤ 10 ^ n := Nat.pow_le_pow_right (by decide) hlt
      _ ≤ c * 10 ^ n := Nat.le_mul_of_pos_left _ hc
  omega

/-! ### The shortest decimal -/

/-- **The search succeeds**, on the coarsest grid that has a point that is read back. -/
theorem exists_of_shortest :
    ∃ c n, x.shortest = x.gridPoint c n ∧ x.ReadsBack (x.gridPoint c n) ∧
      ∀ m b, x.ReadsBack (x.gridPoint b m) → m ≤ n := by
  obtain ⟨c, n, hc, hread, hcoarsest⟩ :=
    exists_of_coarsestUpTo hfinite (Nat.toDigits 10 x.steps).length
  refine ⟨c, n, ?_, hread, fun m b hb => ?_⟩
  · rw [shortest, if_neg hpos, hc]
  · exact hcoarsest m (le_length_of_readsBack hfinite hpos hb) b hb

/-- **No decimal that is read back** has a greater exponent. -/
theorem exponent_le_shortest {d : Decimal} (h : x.ReadsBack d) :
    d.exponent ≤ x.shortest.exponent := by
  obtain ⟨c, n, hc, -, hcoarsest⟩ := exists_of_shortest hfinite hpos
  rw [hc]
  change d.exponent ≤ n - x.places
  by_cases hfine : d.exponent < -x.places
  · omega
  · -- So the decimal lies on one of the grids.
    obtain ⟨m, hm⟩ := Int.eq_ofNat_of_zero_le (by omega : 0 ≤ d.exponent + x.places)
    have hgrid : d = x.gridPoint d.coefficient m := by
      obtain ⟨coefficient, exponent⟩ := d
      change Decimal.mk coefficient exponent = ⟨coefficient, m - x.places⟩
      rw [← hm, add_sub_cancel_right]
    rw [hgrid] at h
    have hle := hcoarsest m _ h
    omega

omit hpos in
/-- **The shortest decimal** is read back. -/
theorem readsBack_shortest : x.ReadsBack x.shortest := by
  by_cases hzero : x.rank = 0
  · unfold ReadsBack shortest
    rw [if_pos hzero, hzero]
    decide
  · obtain ⟨c, n, hc, hread, -⟩ := exists_of_shortest hfinite hzero
    rwa [hc]

/-- **No decimal that is read back** has a coefficient of fewer digits. -/
theorem coefficient_shortest_lt {d : Decimal} (h : x.ReadsBack d) {digits : ℕ}
    (hdigits : d.coefficient < 10 ^ digits) : x.shortest.coefficient < 10 ^ digits := by
  have hexponent := exponent_le_shortest hfinite hpos h
  have hshortest := readsBack_shortest hfinite
  by_contra hle
  rw [not_lt] at hle
  -- A power of ten lies between the two, and its grid is coarser than there is any.
  have hpower : x.ReadsBack ⟨1, x.shortest.exponent + digits⟩ := by
    have hvalue : Decimal.toRat ⟨1, x.shortest.exponent + digits⟩ =
        (10 ^ digits : ℕ) * 10 ^ x.shortest.exponent := by
      unfold Decimal.toRat
      rw [zpow_add₀ (by norm_num), zpow_natCast]
      push_cast
      ring
    refine h.convex hfinite hshortest ?_ ?_
    · rw [hvalue]
      calc d.toRat
          ≤ (10 ^ digits : ℕ) * 10 ^ d.exponent :=
            mul_le_mul_of_nonneg_right (by exact_mod_cast hdigits.le) (by positivity)
        _ ≤ (10 ^ digits : ℕ) * 10 ^ x.shortest.exponent :=
            mul_le_mul_of_nonneg_left (zpow_le_zpow_right₀ (by norm_num) hexponent) (by positivity)
    · rw [hvalue]
      exact mul_le_mul_of_nonneg_right (by exact_mod_cast hle) (by positivity)
  have hcoarse : x.shortest.exponent + digits ≤ x.shortest.exponent :=
    exponent_le_shortest hfinite hpos hpower
  obtain rfl : digits = 0 := by omega
  have hzero : d.coefficient = 0 := Nat.lt_one_iff.mp hdigits
  exact coefficient_ne_zero hfinite hpos h hzero

end Positive

end LoxFront.Binary64

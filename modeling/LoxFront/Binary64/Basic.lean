/-!
# Binary64 values

A `Binary64` is one of the `2 ^ 64` patterns of the IEEE 754 double format. Its
sign bit put aside, a pattern is a natural number, its **rank**, and ranks are
ordered as the magnitudes they stand for:

* `Binary64.rank` is the pattern without its sign, `Binary64.ofRank` its inverse
  on the ranks up to infinity;
* `Binary64.unitsAt` reads a finite rank as a count of **units** of `2 ^ -1074`, the
  least positive magnitude. Every finite magnitude is a whole number of them, so
  all arithmetic on magnitudes is arithmetic of natural numbers.

Two notions of sameness live side by side. `x = y` says that the patterns are
identical; `x == y` is the comparison of IEEE 754, for which the two zeros agree
and NaN differs from itself.
-/

namespace LoxFront

/-- A 64-bit floating-point datum, given by its pattern. -/
structure Binary64 where
  bits : UInt64
deriving DecidableEq

namespace Binary64

/-- The bit of a pattern that holds the sign, as a number: `2 ^ 63`. -/
def signBit : Nat := 0x8000000000000000

/-- The leading bit of a significand, which a pattern does not store: `2 ^ 52`. -/
def hiddenBit : Nat := 0x10000000000000

/-- The rank of infinity: smaller ranks are finite, larger ones are NaN. -/
def infinityRank : Nat := 0x7ff0000000000000

/-- A unit is `2 ^ -unitPlaces`. -/
def unitPlaces : Nat := 1074

/-- The pattern without its sign bit. -/
def rank (x : Binary64) : Nat := x.bits.toNat % signBit

def isNegative (x : Binary64) : Bool := signBit ≤ x.bits.toNat

def isFinite (x : Binary64) : Bool := x.rank < infinityRank

def isNaN (x : Binary64) : Bool := infinityRank < x.rank

/-- The non-negative datum of a rank; ranks beyond infinity go to infinity. -/
def ofRank (r : Nat) : Binary64 := ⟨UInt64.ofNat (min r infinityRank)⟩

/-- The datum with its sign bit cleared. -/
def abs (x : Binary64) : Binary64 := ⟨UInt64.ofNat x.rank⟩

/-- The significand of a finite rank. Below the hidden bit (zero and the subnormals) it is the
rank itself; above, the low 52 bits extend the hidden bit. -/
def significandAt (r : Nat) : Nat := if r < hiddenBit then r else hiddenBit + r % hiddenBit

/-- How often the significand of a rank is doubled. -/
def doublingsAt (r : Nat) : Nat := r / hiddenBit - 1

/-- **The magnitude of a finite rank**, in units. -/
def unitsAt (r : Nat) : Nat := significandAt r <<< doublingsAt r

/-- The magnitude of a finite datum, in units. -/
def units (x : Binary64) : Nat := unitsAt x.rank

/-- **The comparison of IEEE 754**: NaN equals nothing, the two zeros are equal,
and all other data are equal when their patterns are. -/
instance : BEq Binary64 where
  beq x y := !x.isNaN && !y.isNaN && (x.bits == y.bits || (x.rank == 0 && y.rank == 0))

theorem beq_def (x y : Binary64) :
    (x == y) = (!x.isNaN && !y.isNaN && (x.bits == y.bits || (x.rank == 0 && y.rank == 0))) :=
  rfl

theorem rank_lt (x : Binary64) : x.rank < signBit := Nat.mod_lt _ (by decide)

@[simp] theorem rank_ofRank (r : Nat) : (ofRank r).rank = min r infinityRank := by
  have h : min r infinityRank ≤ infinityRank := Nat.min_le_right ..
  -- A rank up to infinity fits a pattern and leaves the sign bit clear.
  simp only [ofRank, rank, UInt64.toNat_ofNat', signBit]
  simp only [infinityRank] at h ⊢
  omega

@[simp] theorem rank_abs (x : Binary64) : x.abs.rank = x.rank := by
  have h := x.rank_lt
  simp only [abs]
  generalize x.rank = r at h ⊢
  simp only [signBit] at h
  simp only [rank, UInt64.toNat_ofNat', signBit]
  omega

end Binary64

end LoxFront

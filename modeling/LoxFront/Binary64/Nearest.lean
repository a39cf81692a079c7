import LoxFront.Binary64.Basic

/-!
# Rounding a quotient to the nearest binary64 value

`Binary64.nearest num den` is the datum nearest to `num / den`, of two equally
near ones the one whose significand is even. The quotient is counted in units; where
that count has more than 53 binary digits, it is rounded as a multiple of the power of
two that leaves 53.

The rank of the result needs no case distinction. With `s` binary digits cut off,
the rounded significand is `m ≤ 2 ^ 53` and the rank is `s * 2 ^ 52 + m`: the
hidden bit of `m` raises the exponent field by one, and so does a carry to
`2 ^ 53`. Subnormal results are the case `s = 0`, and results from
`2 ^ 1024 - 2 ^ 970` on reach the rank of infinity.
-/

namespace LoxFront

/-- The integer nearest to `num / den`, a half going to the even neighbour. -/
def roundHalfEven (num den : Nat) : Nat :=
  let quotient := num / den
  let twice := 2 * (num % den)
  if twice < den ∨ (twice = den ∧ quotient % 2 = 0) then quotient else quotient + 1

namespace Binary64

/-- How many binary digits of a whole number of units do not fit a significand. -/
def excessBits (units : Nat) : Nat := units.log2 - 52

/-- **Correct rounding**: the datum nearest to `num / den`, ties to even. -/
def nearest (num den : Nat) : Binary64 :=
  let scaled := num <<< unitPlaces
  let shift := excessBits (scaled / den)
  ofRank (shift * hiddenBit + roundHalfEven scaled (den <<< shift))

end Binary64

end LoxFront

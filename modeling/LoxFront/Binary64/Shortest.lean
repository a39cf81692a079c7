import LoxFront.Decimal

/-!
# The shortest decimal text of a binary64 value

A finite nonzero datum is printed with the fewest digits that read back as the
same datum; of the texts with that many digits the one nearest to it is taken, and
of two equally near ones the larger. The notation is positional at every size.

A finite magnitude is a decimal itself, a whole number of steps of a negative power of
ten (`Binary64.steps`, `Binary64.places`). So a **grid** of decimals is given by the
number `n` of digits of `steps` that it drops. `Binary64.onGrid?` tests the two
neighbours of the value on one grid with the reader itself, and
`Binary64.coarsestUpTo` walks from the coarsest grid that can matter to finer ones
until a neighbour reads back. On the grid `n = 0` the value is exact, so the walk
needs no other end.
-/

namespace LoxFront.Binary64

/-- A number of decimal places that suffices to write the magnitude exactly. -/
def places (x : Binary64) : Nat := unitPlaces - doublingsAt x.rank

/-- The magnitude in steps of `10 ^ -places`. Each place turns a halving into a factor
of five; doublings beyond the units are written out. -/
def steps (x : Binary64) : Nat :=
  (significandAt x.rank * Nat.pow 5 x.places) <<< (doublingsAt x.rank - unitPlaces)

/-- The decimal `coefficient` on the grid that drops `n` digits of the steps of `x`. -/
def gridPoint (x : Binary64) (coefficient n : Nat) : Decimal := ⟨coefficient, n - x.places⟩

/-- The decimal is read as the magnitude of `x`. -/
def ReadsBack (x : Binary64) (d : Decimal) : Prop := d.nearest.rank = x.rank

instance (x : Binary64) (d : Decimal) : Decidable (x.ReadsBack d) :=
  inferInstanceAs (Decidable (d.nearest.rank = x.rank))

/-- The neighbour of `x` on a grid that reads back as `x`, if there is one. Of two the
nearer is taken, and the upper one if `x` is half way between them. -/
def onGrid? (x : Binary64) (n : Nat) : Option Decimal :=
  let spacing := Nat.pow 10 n
  let below := x.gridPoint (x.steps / spacing) n
  let above := x.gridPoint (x.steps / spacing + 1) n
  if x.ReadsBack below then
    if spacing ≤ 2 * (x.steps % spacing) ∧ x.ReadsBack above then some above else some below
  else if x.ReadsBack above then some above
  else none

/-- The first point that reads back as `x`, on grids that drop `n` digits or fewer. -/
def coarsestUpTo (x : Binary64) : Nat → Decimal
  | 0 => x.gridPoint x.steps 0
  | n + 1 => (x.onGrid? (n + 1)).getD (x.coarsestUpTo n)

/-- **The shortest decimal** that reads back as the magnitude of a finite datum. The walk
starts where a grid has no point but zero below the value. -/
def shortest (x : Binary64) : Decimal :=
  if x.rank = 0 then ⟨0, 0⟩ else x.coarsestUpTo (Nat.toDigits 10 x.steps).length

/-- The magnitude as text; a NaN has no sign. -/
def magnitudeText (x : Binary64) : String :=
  if x.isFinite then String.ofList x.shortest.numeral.text else "inf"

/-- The text of a datum: `NaN`, or a minus sign where the sign bit is set and the
magnitude. -/
def text (x : Binary64) : String :=
  if x.isNaN then "NaN"
  else if x.isNegative then "-" ++ x.magnitudeText
  else x.magnitudeText

end LoxFront.Binary64

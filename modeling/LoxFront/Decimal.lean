import LoxFront.Binary64.Nearest

/-!
# Decimals and numerals

A `Decimal` is a value, a coefficient times a power of ten; a `Numeral` is a way to
write one, digits with an optional fraction. Neither has a sign or an exponent
mark.

* `Numeral.ofText?` reads a numeral, `Numeral.value` is its value, and `Decimal.numeral`
  writes a decimal in positional notation.
* `Decimal.nearest` is the binary64 value of a decimal, correctly rounded.
-/

namespace LoxFront

/-- The value `coefficient * 10 ^ exponent`. -/
structure Decimal where
  coefficient : Nat
  exponent : Int
deriving DecidableEq, Repr

/-- The digits of a numeral. A numeral without a point has an empty `fraction`. -/
structure Numeral where
  whole : List Char
  fraction : List Char
deriving DecidableEq, Repr

namespace Decimal

/-- A decimal is the quotient `numerator / denominator`. -/
def numerator (d : Decimal) : Nat := d.coefficient * Nat.pow 10 d.exponent.toNat

def denominator (d : Decimal) : Nat := Nat.pow 10 (-d.exponent).toNat

/-- The binary64 value nearest to a decimal, ties to even. -/
def nearest (d : Decimal) : Binary64 := Binary64.nearest d.numerator d.denominator

/-- **Positional notation.** A power of ten that is not negative is written out as
zeros; a negative one sets the point, after zeros on the left if the coefficient
has too few digits to leave one before it. -/
def numeral (d : Decimal) : Numeral :=
  let digits := Nat.toDigits 10 d.coefficient
  let places := (-d.exponent).toNat
  let padded := List.replicate (places + 1 - digits.length) '0' ++ digits
  let all := padded ++ List.replicate d.exponent.toNat '0'
  ⟨all.take (all.length - places), all.drop (all.length - places)⟩

end Decimal

namespace Numeral

/-- The numeral as it is written: a point stands only before a fraction. -/
def text : Numeral → List Char
  | ⟨whole, []⟩ => whole
  | ⟨whole, fraction⟩ => whole ++ '.' :: fraction

/-- The value of a numeral: all its digits, shifted by the length of the fraction. -/
def value (n : Numeral) : Decimal :=
  ⟨Nat.ofDigitChars 10 (n.whole ++ n.fraction) 0, -n.fraction.length⟩

/-- **Reading a numeral**: digits, or digits on both sides of a point, and nothing else. -/
def ofText? (cs : List Char) : Option Numeral :=
  let whole := cs.takeWhile Char.isDigit
  match whole, cs.dropWhile Char.isDigit with
  | [], _ => none
  | _, [] => some ⟨whole, []⟩
  | _, '.' :: d :: fraction =>
    if (d :: fraction).all Char.isDigit then some ⟨whole, d :: fraction⟩ else none
  | _, _ => none

@[simp] theorem text_whole (whole : List Char) : text ⟨whole, []⟩ = whole := rfl

@[simp] theorem text_fraction (whole : List Char) (d : Char) (ds : List Char) :
    text ⟨whole, d :: ds⟩ = whole ++ '.' :: d :: ds := rfl

end Numeral

end LoxFront

/-
Binary floating point of 64 bits, in exact arithmetic.

A finite number of this format is a sign and a magnitude `m * 2 ^ e`, where `m`
has at most 53 bits and `e` is at least -1074.  The operations here compute the
exact result as a ratio of natural numbers and round it once, to the nearest
magnitude, and to the even one of two that are equally near.  A result beyond the
largest magnitude has no value.
-/

namespace ResourceQuery

/-- The magnitude `significand * 2 ^ exponent`. -/
structure Magnitude where
  significand : Nat
  exponent : Int
  deriving DecidableEq, Repr

namespace Magnitude

/-- The number of bits of a significand. -/
def precision : Nat := 53

/-- The least significand of full precision. -/
def fullSignificand : Nat := Nat.pow 2 (precision - 1)

/-- The least exponent. -/
def minExponent : Int := -1074

/-- The least exponent at which the format ends. -/
def overflowExponent : Int := 971

def zero : Magnitude := ⟨0, minExponent⟩

/-- A power with an integer exponent, as a numerator and a denominator. -/
def powerRatio (base : Nat) (exponent : Int) : Nat × Nat :=
  (Nat.pow base exponent.toNat, Nat.pow base (-exponent).toNat)

/-- The quotient of two numbers, to the nearest; a half goes to the even
neighbour. -/
def divideToNearest (num den : Nat) : Nat :=
  let quotient := num / den
  let twice := 2 * (num % den)
  if twice < den then quotient
  else if den < twice then quotient + 1
  else if quotient % 2 = 0 then quotient
  else quotient + 1

/-- The exponent at which a ratio has a significand of full precision, or the least
exponent if that is higher. -/
def exponentFor (num den : Nat) : Int :=
  let low : Int := num.log2 - den.log2 - precision
  let (scaleNum, scaleDen) := powerRatio 2 (low + precision)
  let exponent := if num * scaleDen < scaleNum * den then low else low + 1
  max exponent minExponent

/-- The magnitude nearest to a ratio, if the format reaches so far. -/
def ofRatio? (num den : Nat) : Option Magnitude :=
  if num = 0 then some zero
  else
    let exponent := exponentFor num den
    let (scaleNum, scaleDen) := powerRatio 2 exponent
    let rounded := divideToNearest (num * scaleDen) (den * scaleNum)
    let result : Magnitude :=
      if rounded = 2 * fullSignificand then ⟨fullSignificand, exponent + 1⟩
      else ⟨rounded, exponent⟩
    if overflowExponent < result.exponent then none else some result

/-- The exact value of a magnitude, as a numerator and a denominator. -/
def ratio (x : Magnitude) : Nat × Nat :=
  let (scaleNum, scaleDen) := powerRatio 2 x.exponent
  (x.significand * scaleNum, scaleDen)

/-- The magnitude nearest to a product. -/
def mul? (x y : Magnitude) : Option Magnitude :=
  ofRatio? (x.ratio.1 * y.ratio.1) (x.ratio.2 * y.ratio.2)

/-- The magnitude nearest to a quotient. -/
def div? (x y : Magnitude) : Option Magnitude :=
  ofRatio? (x.ratio.1 * y.ratio.2) (x.ratio.2 * y.ratio.1)

/-- The magnitude nearest to a natural number. -/
def ofNat? (n : Nat) : Option Magnitude :=
  ofRatio? n 1

end Magnitude

/-- A finite number in binary floating point; there is a negative zero. -/
structure Binary64 where
  negative : Bool
  magnitude : Magnitude
  deriving DecidableEq, Repr

end ResourceQuery

/-
The numerals of a JSON text, and the numbers they stand for.

An integer that 64 bits hold, with a sign or without, stands for itself.  Every
other numeral is read as a floating point number, in two steps: as many digits as
fit 64 bits make a significand, and the result is scaled by a power of ten.  Both
steps round, so the number may lie a little off the nearest one.  A numeral too
large for the format stands for nothing, and so does a text that holds it.
-/
import ResourceQuery.Json.Value

namespace ResourceQuery.Json

/-- A numeral, taken apart. -/
structure Numeral where
  negative : Bool
  whole : List Char
  /-- The digits behind the point; none if there is no point. -/
  fraction : List Char
  /-- The exponent, zero if none is written. -/
  exponent : Int
  /-- Whether there is neither a fraction nor an exponent. -/
  isInteger : Bool
  deriving DecidableEq, Repr

namespace Numeral

/-! ### Reading -/

/-- The digits a text starts with, and what follows. -/
def digits (cs : List Char) : List Char × List Char :=
  (cs.takeWhile Char.isDigit, cs.dropWhile Char.isDigit)

/-- The value of digits. -/
def digitsValue (ds : List Char) : Nat :=
  Nat.ofDigitChars 10 ds 0

/-- The digits in front of the point: a zero alone, or digits without a leading
zero. -/
def readWhole? (cs : List Char) : Option (List Char × List Char) :=
  match digits cs with
  | ([], _) => none
  | ('0' :: _ :: _, _) => none
  | (ds, rest) => some (ds, rest)

/-- The digits behind a point, at least one; no digits if there is no point. -/
def readFraction? (cs : List Char) : Option (List Char × List Char) :=
  match cs with
  | '.' :: rest =>
    match digits rest with
    | ([], _) => none
    | (ds, rest) => some (ds, rest)
  | _ => some ([], cs)

/-- A sign, if there is one, and whether it is a minus. -/
def readSign (cs : List Char) : Bool × List Char :=
  match cs with
  | '-' :: rest => (true, rest)
  | '+' :: rest => (false, rest)
  | _ => (false, cs)

/-- The exponent behind its letter, at least one digit; nothing if there is no
letter. -/
def readExponent? (cs : List Char) : Option (Option Int × List Char) :=
  match cs with
  | c :: rest =>
    if c = 'e' || c = 'E' then
      let (negative, rest) := readSign rest
      match digits rest with
      | ([], _) => none
      | (ds, rest) =>
        some (some (if negative then -(digitsValue ds : Int) else digitsValue ds), rest)
    else some (none, cs)
  | [] => some (none, [])

/-- The numeral a text starts with, and what follows. -/
def read? (cs : List Char) : Option (Numeral × List Char) := do
  let (negative, cs) := if cs.head? = some '-' then (true, cs.drop 1) else (false, cs)
  let (whole, cs) ← readWhole? cs
  let (fraction, cs) ← readFraction? cs
  let (exponent, cs) ← readExponent? cs
  some (⟨negative, whole, fraction, exponent.getD 0, fraction.isEmpty && exponent.isNone⟩, cs)

/-! ### Valuation -/

/-- A significand with one more digit, if 64 bits hold it. -/
def appendDigit? (significand : Nat) (d : Char) : Option Nat :=
  let longer := 10 * significand + (d.toNat - '0'.toNat)
  if longer < wordLimit then some longer else none

/-- The significand of digits in front of the point, and how many of them it leaves
out: all from the first that no longer fits. -/
def wholeSignificand (significand : Nat) : List Char → Nat × Nat
  | [] => (significand, 0)
  | d :: ds =>
    match appendDigit? significand d with
    | some longer => wholeSignificand longer ds
    | none => (significand, ds.length + 1)

/-- The significand with digits behind the point, and how many of them it takes up:
all up to the first that no longer fits. -/
def fractionSignificand (significand : Nat) : List Char → Nat × Nat
  | [] => (significand, 0)
  | d :: ds =>
    match appendDigit? significand d with
    | some longer =>
      let (result, taken) := fractionSignificand longer ds
      (result, taken + 1)
    | none => (significand, 0)

/-- The largest power of ten that is scaled by at once. -/
def largestPower : Nat := 308

/-- The power of ten, in floating point. -/
def tenTo? (n : Nat) : Option Magnitude :=
  Magnitude.ofNat? (Nat.pow 10 n)

/-- A magnitude scaled down by a power of ten, in steps of the largest power while
more is left. -/
def scaleDown? (x : Magnitude) (power : Nat) : Option Magnitude :=
  if power ≤ largestPower then do x.div? (← tenTo? power)
  else if x.significand = 0 then some x
  else do
    let next ← x.div? (← tenTo? largestPower)
    scaleDown? next (power - largestPower)
termination_by power
decreasing_by
  simp only [largestPower] at *
  omega

/-- A magnitude scaled up by a power of ten, if the format reaches so far. -/
def scaleUp? (x : Magnitude) (power : Nat) : Option Magnitude :=
  if power ≤ largestPower then do x.mul? (← tenTo? power)
  else if x.significand = 0 then some x
  else none

/-- The magnitude of a numeral, read as a floating point number. -/
def magnitude? (n : Numeral) : Option Magnitude := do
  let (whole, dropped) := wholeSignificand 0 n.whole
  let (significand, taken) := fractionSignificand whole n.fraction
  let power : Int := dropped - taken + n.exponent
  let x ← Magnitude.ofNat? significand
  if 0 ≤ power then scaleUp? x power.toNat else scaleDown? x power.natAbs

/-- The integer a numeral stands for, if it is written as one and 64 bits hold it;
a zero with a minus is no integer. -/
def integer? (n : Numeral) : Option Int :=
  let value := digitsValue n.whole
  if !n.isInteger then none
  else if n.negative then
    if value ≠ 0 && value ≤ signedLimit then some (-(value : Int)) else none
  else if value < wordLimit then some value
  else none

/-- The number that a numeral stands for. -/
def value? (n : Numeral) : Option Json :=
  match n.integer? with
  | some value => some (.integer value)
  | none => n.magnitude?.map (fun x => .float ⟨n.negative, x⟩)

end Numeral

end ResourceQuery.Json

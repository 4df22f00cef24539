/-
The shortest decimal that reads back as a binary magnitude.

The decimals that round to a magnitude are those between the midpoints to its
neighbours, and the midpoints too if its significand is even.  Among them the
shortest are sought: grids of powers of ten are tried from the coarsest to the
finest, and on each grid the two points around the magnitude.  If any point of a
grid lies between the midpoints, one of these two does, so the first grid that has
one gives the fewest digits; of two hits the nearer is taken, and the even one of
two that are equally near.
-/
import ResourceQuery.Binary64

namespace ResourceQuery.Magnitude

/-- The decimal `digits * 10 ^ exponent`. -/
structure Decimal where
  digits : Nat
  exponent : Int
  deriving DecidableEq, Repr

/-- A decimal exponent at which no grid has a point near any magnitude but zero. -/
def coarsest : Int := 310

/-- The number of grids from the coarsest to one that holds every magnitude. -/
def gridCount : Nat := 1400

/-- The interval of what rounds to a magnitude, in quarters of its last place: its
lower end, the magnitude, and its upper end.  Below a power of two the neighbour
is half as far. -/
def quarters (x : Magnitude) : Nat × Nat × Nat :=
  let middle := 4 * x.significand
  let low :=
    if x.significand = fullSignificand && minExponent < x.exponent then middle - 1
    else middle - 2
  (low, middle, middle + 2)

/-- The points of a grid next to a magnitude, those that round to it. -/
def gridHit? (x : Magnitude) (exponent : Int) : Option Nat :=
  let (low, middle, high) := x.quarters
  let (unitNum, unitDen) := powerRatio 2 (x.exponent - 2)
  let (gridNum, gridDen) := powerRatio 10 exponent
  -- In units of `1 / (unitDen * gridDen)`, a quarter is `quarter` and a grid step `step`.
  let quarter := unitNum * gridDen
  let step := gridNum * unitDen
  let below := middle * quarter / step
  let within (point : Nat) : Bool :=
    if x.significand % 2 = 0 then low * quarter ≤ point * step && point * step ≤ high * quarter
    else low * quarter < point * step && point * step < high * quarter
  let gap := middle * quarter % step
  let nearest :=
    if 2 * gap < step || (2 * gap = step && below % 2 = 0) then below else below + 1
  if within below && within (below + 1) then some nearest
  else if within below then some below
  else if within (below + 1) then some (below + 1)
  else none

/-- The first hit on the grids from an exponent downwards. -/
def firstHit (x : Magnitude) : (grids : Nat) → (exponent : Int) → Decimal
  | 0, exponent => ⟨0, exponent⟩
  | grids + 1, exponent =>
    match x.gridHit? exponent with
    | some digits => ⟨digits, exponent⟩
    | none => x.firstHit grids (exponent - 1)

/-- The shortest decimal that rounds to a magnitude. -/
def shortest (x : Magnitude) : Decimal :=
  if x.significand = 0 then ⟨0, 0⟩ else x.firstHit gridCount coarsest

end ResourceQuery.Magnitude

/-
Dates, `YYYY-MM-DDTHH:MM:SSZ`.

Only the shape of a date is looked at, not whether there is such a day.  A text
that opens like a date, up to the `T`, is committed to being one: if the time
behind the `T` is not complete, or the literal goes on behind the `Z`, the query
is refused, and what is cited is the text up to where a time could have reached.
-/
import ResourceQuery.Literal.Character

namespace ResourceQuery.Date

/-- Whether a text opens with a shape, in which `d` stands for any digit and
every other character for itself. -/
def opensWith : (shape : List Char) → List Char → Bool
  | [], _ => true
  | _ :: _, [] => false
  | s :: shape, c :: cs => (if s = 'd' then c.isDigit else c = s) && opensWith shape cs

/-- The shape of a day, and of the letter that opens the time. -/
def dayShape : List Char :=
  ['d', 'd', 'd', 'd', '-', 'd', 'd', '-', 'd', 'd', 'T']

/-- The shape of a time. -/
def timeShape : List Char :=
  ['d', 'd', ':', 'd', 'd', ':', 'd', 'd', 'Z']

/-- The shape of a whole date. -/
def shape : List Char :=
  dayShape ++ timeShape

/-- The length of digits and colons with an optional `Z` behind them. -/
def timeLength (cs : List Char) : Nat :=
  let clock := (cs.takeWhile (fun c => c.isDigit || c = ':')).length
  if (cs.drop clock).head? = some 'Z' then clock + 1 else clock

/-- What a text says about the date it may open with. -/
inductive Reading
  /-- A whole date. -/
  | complete
  /-- A date that breaks off, or runs into more of a literal, behind `length`
  characters. -/
  | incomplete (length : Nat)
  /-- No date. -/
  | absent
  deriving DecidableEq, Repr

/-- Whether a text opens with a date. -/
def read (cs : List Char) : Reading :=
  if opensWith shape cs && endsLiteral (cs.drop shape.length) then .complete
  else if opensWith dayShape cs then
    .incomplete (dayShape.length + timeLength (cs.drop dayShape.length))
  else .absent

end ResourceQuery.Date

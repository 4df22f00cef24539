/-
JSON values as text.

There are two layouts.  The compact one has no blanks at all.  The pretty one puts
every item and member on a line of its own, two blanks further in than what holds
it, and a blank behind the colon; an array or object with nothing in it stays on
its line.  In both, a string escapes the quote, the backslash and the controls, and
writes everything else as it is.
-/
import ResourceQuery.Binary64.Shortest
import ResourceQuery.Json.Value

namespace ResourceQuery.Json

/-! ### Strings -/

/-- The escape of a control by its code. -/
def controlEscape (c : Char) : List Char :=
  ['\\', 'u', '0', '0', Nat.digitChar (c.toNat / 16), Nat.digitChar (c.toNat % 16)]

/-- A character as it is written in a string. -/
def printChar (c : Char) : List Char :=
  if c = '"' then ['\\', '"']
  else if c = '\\' then ['\\', '\\']
  else if c = '\x08' then ['\\', 'b']
  else if c = '\t' then ['\\', 't']
  else if c = '\n' then ['\\', 'n']
  else if c = '\x0c' then ['\\', 'f']
  else if c = '\r' then ['\\', 'r']
  else if c.toNat < 0x20 then controlEscape c
  else [c]

/-- A string in its quotes. -/
def printString (s : String) : List Char :=
  '"' :: s.toList.flatMap printChar ++ ['"']

/-! ### Numbers -/

/-- An integer in decimal. -/
def printInteger (n : Int) : List Char :=
  if n < 0 then '-' :: Nat.toDigits 10 n.natAbs else Nat.toDigits 10 n.natAbs

/-- The decimal exponents that are written by the place of the point: from the
first to the second. -/
def positional : Int × Int := (-5, 15)

/-- A decimal in scientific form: one digit, the point and the other digits if there
are any, and the exponent with its sign. -/
def scientific (digits : List Char) (exponent : Int) : List Char :=
  let fraction := if digits.length ≤ 1 then [] else '.' :: digits.drop 1
  let sign := if exponent < 0 then '-' else '+'
  digits.take 1 ++ fraction ++ 'e' :: sign :: Nat.toDigits 10 exponent.natAbs

/-- A decimal by the place of the point, behind `whole` digits; there is a digit on
either side of it. -/
def pointed (digits : List Char) (whole : Int) : List Char :=
  if whole ≤ 0 then
    '0' :: '.' :: List.replicate whole.natAbs '0' ++ digits
  else if digits.length ≤ whole.toNat then
    digits ++ List.replicate (whole.toNat - digits.length) '0' ++ ['.', '0']
  else digits.take whole.toNat ++ '.' :: digits.drop whole.toNat

/-- A magnitude by the fewest digits that read back. -/
def printMagnitude (x : Magnitude) : List Char :=
  let decimal := x.shortest
  let digits := Nat.toDigits 10 decimal.digits
  let exponent := decimal.exponent + digits.length - 1
  if positional.1 ≤ exponent && exponent ≤ positional.2 then pointed digits (exponent + 1)
  else scientific digits exponent

/-- A floating point number. -/
def printFloat (x : Binary64) : List Char :=
  if x.negative then '-' :: printMagnitude x.magnitude else printMagnitude x.magnitude

/-! ### Values -/

/-- Where blanks stand in the text of a value. -/
inductive Layout
  | compact
  | pretty
  deriving DecidableEq, Repr

/-- What stands in front of an item or a closing bracket that is `depth` levels
in. -/
def Layout.lineBreak : Layout → (depth : Nat) → List Char
  | compact, _ => []
  | pretty, depth => '\n' :: List.replicate (2 * depth) ' '

/-- What stands between the name and the value of a member. -/
def Layout.colon : Layout → List Char
  | compact => [':']
  | pretty => [':', ' ']

mutual

/-- A value that stands `depth` levels in. -/
def print (layout : Layout) (depth : Nat) : Json → List Char
  | .null => ['n', 'u', 'l', 'l']
  | .bool true => ['t', 'r', 'u', 'e']
  | .bool false => ['f', 'a', 'l', 's', 'e']
  | .integer n => printInteger n
  | .float x => printFloat x
  | .string s => printString s
  | .array [] => ['[', ']']
  | .array (item :: items) =>
    '[' :: layout.lineBreak (depth + 1) ++ print layout (depth + 1) item
      ++ printItems layout (depth + 1) items ++ layout.lineBreak depth ++ [']']
  | .object [] => ['\x7b', '\x7d']
  | .object ((name, value) :: members) =>
    '\x7b' :: layout.lineBreak (depth + 1) ++ printString name ++ layout.colon
      ++ print layout (depth + 1) value ++ printMembers layout (depth + 1) members
      ++ layout.lineBreak depth ++ ['\x7d']

/-- The items behind the first, each behind its comma. -/
def printItems (layout : Layout) (depth : Nat) : List Json → List Char
  | [] => []
  | item :: items =>
    ',' :: layout.lineBreak depth ++ print layout depth item ++ printItems layout depth items

/-- The members behind the first, each behind its comma. -/
def printMembers (layout : Layout) (depth : Nat) : List (String × Json) → List Char
  | [] => []
  | (name, value) :: members =>
    ',' :: layout.lineBreak depth ++ printString name ++ layout.colon
      ++ print layout depth value ++ printMembers layout depth members

end

/-- A value as text. -/
def render (layout : Layout) (j : Json) : String :=
  String.ofList (print layout 0 j)

end ResourceQuery.Json

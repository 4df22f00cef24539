/-
JSON values.

An integer literal that 64 bits can hold is kept as an integer; every other number
is kept in binary floating point.  The members of an object are kept in the order
of their names, each name once.
-/
import ResourceQuery.Binary64

namespace ResourceQuery

/-- A JSON value. -/
inductive Json
  | null
  | bool (b : Bool)
  | integer (n : Int)
  | float (x : Binary64)
  | string (s : String)
  | array (items : List Json)
  | object (members : List (String × Json))
  deriving Inhabited

namespace Json

/-- The least natural number that 64 bits do not hold. -/
def wordLimit : Nat := 18446744073709551616

/-- The largest distance from zero of an integer that 64 bits hold with its sign. -/
def signedLimit : Nat := 9223372036854775808

/-- The members of an object with one more; a member of the same name is
replaced. -/
def insertMember (name : String) (value : Json) : List (String × Json) → List (String × Json)
  | [] => [(name, value)]
  | (other, old) :: rest =>
    if name < other then (name, value) :: (other, old) :: rest
    else if name = other then (name, value) :: rest
    else (other, old) :: insertMember name value rest

/-- The object of some members, of which the last of each name counts. -/
def ofMembers (members : List (String × Json)) : Json :=
  .object (members.foldl (fun known member => insertMember member.1 member.2 known) [])

/-- The members of an object. -/
def members? : Json → Option (List (String × Json))
  | object members => some members
  | _ => none

/-- The member of a name. -/
def member? (members : List (String × Json)) (name : String) : Option Json :=
  members.lookup name

/-- The text of a JSON string. -/
def text? : Json → Option String
  | string s => some s
  | _ => none

/-- The value of an integer from zero to the largest that 64 bits hold. -/
def index? : Json → Option Nat
  | integer n => if 0 ≤ n && n.toNat < wordLimit then some n.toNat else none
  | _ => none

end Json

end ResourceQuery

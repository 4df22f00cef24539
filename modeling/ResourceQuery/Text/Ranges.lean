/-
Sets of characters, as lists of code point ranges.

The tables of character properties are written this way.  Both ends of a range
belong to it.
-/

namespace ResourceQuery.Text

/-- A set of code points, as ranges whose ends are included. -/
abbrev Ranges := List (Nat × Nat)

/-- Whether a character belongs to a set. -/
def Ranges.contains (ranges : Ranges) (c : Char) : Bool :=
  ranges.any (fun range => range.1 ≤ c.toNat && c.toNat ≤ range.2)

end ResourceQuery.Text

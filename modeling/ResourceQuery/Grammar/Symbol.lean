/-
What the grammar sees of a token.

Two kinds of token play a part beyond their kind, decided by what stands around
them: text directly in front of a comparison is a field, and a comparison is an
operator in infix position.  Everything else is seen by its kind alone.
-/
import ResourceQuery.Token.Kind

namespace ResourceQuery

/-- A letter of the grammar's alphabet. -/
inductive Symbol
  /-- A token that its kind describes fully. -/
  | plain (kind : Kind)
  /-- Text with a comparison directly behind it. -/
  | field
  /-- A comparison between a field and a value. -/
  | comparison
  deriving DecidableEq, Repr

/-- The kind of the tokens that a symbol stands for. -/
def Symbol.kind : Symbol → Kind
  | plain kind => kind
  | field => .string
  | comparison => .operator

end ResourceQuery

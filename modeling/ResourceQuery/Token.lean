/-
Tokens: a kind, a decoded value, and where in the query the token starts.

Positions count the bytes of the query's UTF-8 form.  They refer to the query
as it was written, so a value whose escapes were decoded is in general shorter
than the text it came from.
-/
import ResourceQuery.Token.Kind

namespace ResourceQuery

/-- One classified piece of a query. -/
structure Token where
  kind : Kind
  /-- The text of the token, its escapes decoded. -/
  value : String
  /-- The byte of the query at which the token starts. -/
  position : Nat
  deriving DecidableEq, Repr, Inhabited

namespace Token

/-- The sentinel behind the last token of a query that ends at `position`. -/
def sentinel (position : Nat) : Token :=
  ⟨.ending, "", position⟩

/-- Whether the token is of a kind. -/
def test (t : Token) (kind : Kind) : Bool :=
  t.kind = kind

/-- Whether the token is the sentinel behind the last token. -/
def isEnd (t : Token) : Bool :=
  t.test .ending

/-- A token as a log shows it: value, kind and position. -/
def describe (t : Token) : String :=
  "\"" ++ t.value ++ "\" (" ++ t.kind.name ++ ") at " ++ toString t.position

end Token

end ResourceQuery

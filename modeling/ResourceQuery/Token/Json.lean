/-
Tokens in JSON, for interchange.

A token is an object with its kind's name, its value and its position.  Reading
one back looks at these three members only, in this order, and reports the first
that does not fit.
-/
import ResourceQuery.Json.Printer
import ResourceQuery.TokenStream

namespace ResourceQuery

namespace Token

/-- The object of a token. -/
def toJson (t : Token) : Json :=
  .ofMembers [("type", .string t.kind.name), ("value", .string t.value),
    ("position", .integer t.position)]

/-- Why a value is no token. -/
inductive JsonError
  | notAnObject (j : Json)
  | noKind
  | unknownKind (e : Kind.UnknownName)
  | noValue
  | noPosition

/-- The wording of the error. -/
def JsonError.message : JsonError → String
  | notAnObject j => "expected token object, got " ++ j.render .compact
  | noKind => "missing token type"
  | unknownKind e => e.message
  | noValue => "missing token value"
  | noPosition => "missing token position"

/-- What is wanted, or the error of its absence. -/
def wanted {α : Type} (x : Option α) (e : JsonError) : Except JsonError α :=
  match x with
  | some a => .ok a
  | none => .error e

/-- The token that an object stands for. -/
def ofJson (j : Json) : Except JsonError Token := do
  let members ← wanted j.members? (.notAnObject j)
  let name ← wanted ((Json.member? members "type").bind Json.text?) .noKind
  let kind ← (Kind.ofName name).mapError .unknownKind
  let value ← wanted ((Json.member? members "value").bind Json.text?) .noValue
  let position ← wanted ((Json.member? members "position").bind Json.index?) .noPosition
  return ⟨kind, value, position⟩

end Token

namespace TokenStream

/-- The array of all tokens. -/
def toJson (s : TokenStream) : Json :=
  .array (s.toList.map Token.toJson)

end TokenStream

end ResourceQuery

/-
The forms in which the command prints a token stream.
-/
import ResourceQuery.Text.Lowercase

namespace ResourceQuery.Command

/-- How a token stream is printed. -/
inductive Format
  /-- As a listing, one token on a line. -/
  | text
  /-- As a JSON array. -/
  | json
  deriving DecidableEq, Repr

namespace Format

/-- A name, in small letters, that is no format's. -/
structure UnknownName where
  name : String
  deriving DecidableEq, Repr

/-- The wording of the error. -/
def UnknownName.message (e : UnknownName) : String :=
  "unknown output format '" ++ e.name ++ "' (expected text or json)"

/-- The format of a name, whatever its case. -/
def ofName (name : String) : Except UnknownName Format :=
  match Text.lowercase name with
  | "text" => .ok text
  | "json" => .ok json
  | other => .error ⟨other⟩

end Format

end ResourceQuery.Command

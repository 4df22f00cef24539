/-
Why a query is refused.

A fault is one of the five things that can be wrong at a place of a query: a
character no token starts with, a `%` that opens no escape, escapes that decode
to no text, a date that breaks off, and a token that is well formed but out of
place.  All of them are reported alike, by the text they cite, the kind of
token that text would have been, and its position.
-/
import ResourceQuery.Token

namespace ResourceQuery

/-- What is wrong at a place of a query. -/
inductive Fault
  /-- No token starts with this character. -/
  | unknownCharacter (c : Char)
  /-- A literal runs into a `%` without two hexadecimal digits behind it. -/
  | malformedEscape (text : String)
  /-- The escapes of a literal decode to bytes that are not UTF-8. -/
  | undecodable (text : String)
  /-- A literal opens like a date and is none. -/
  | incompleteDate (text : String)
  /-- A token that may not stand where it does. -/
  | unexpected (kind : Kind) (value : String)
  deriving DecidableEq, Repr

namespace Fault

/-- The kind of token that the cited text was taken for. -/
def kind : Fault → Kind
  | unknownCharacter _ => .unknown
  | malformedEscape _ => .string
  | undecodable _ => .string
  | incompleteDate _ => .date
  | unexpected kind _ => kind

/-- The text that the fault cites. -/
def value : Fault → String
  | unknownCharacter c => String.singleton c
  | malformedEscape text => text
  | undecodable text => text
  | incompleteDate text => text
  | unexpected _ value => value

end Fault

/-- A fault and the byte of the query at which it lies. -/
structure SyntaxError where
  fault : Fault
  position : Nat
  deriving DecidableEq, Repr

namespace SyntaxError

/-- The error of meeting a token where another was wanted. -/
def ofToken (t : Token) : SyntaxError :=
  ⟨.unexpected t.kind t.value, t.position⟩

/-- The kind of token that the cited text was taken for. -/
def kind (e : SyntaxError) : Kind :=
  e.fault.kind

/-- The text that the error cites. -/
def value (e : SyntaxError) : String :=
  e.fault.value

/-- The wording of the error. -/
def message (e : SyntaxError) : String :=
  "Unexpected token \"" ++ e.value ++ "\" (" ++ e.kind.name ++ ") at position "
    ++ toString e.position

end SyntaxError

end ResourceQuery

/-
The character classes of a query.

All of them are classes of ASCII characters, and so is every character a token
can start with: a character outside ASCII appears in a value only as the decoded
form of escapes.  The recognisers of literals look at one character behind the
text they take, to see whether the literal really ends there; `endsLiteral` is
that look.
-/

namespace ResourceQuery

/-- Characters that may stand between tokens: space, tab, line feed, form feed
and carriage return. -/
def isBlank (c : Char) : Bool :=
  c = ' ' || c = '\t' || c = '\n' || c = '\x0c' || c = '\r'

/-- Characters that stand for themselves inside a literal. -/
def isLiteral (c : Char) : Bool :=
  c.isAlphanum || c = '_' || c = '.' || c = '~' || c = '*' || c = '?' || c = '-'

/-- Characters that may continue a literal: those that stand for themselves, and
the `%` of an escape. -/
def continuesLiteral (c : Char) : Bool :=
  isLiteral c || c = '%'

/-- Whether a literal that reaches this far ends here. -/
def endsLiteral : List Char → Bool
  | [] => true
  | c :: _ => !continuesLiteral c

/-- Characters a name may start with. -/
def startsName (c : Char) : Bool :=
  c.isAlpha || c = '_'

/-- Characters a name may go on with. -/
def continuesName (c : Char) : Bool :=
  c.isAlphanum || c = '_'

/-- The names of operators and types. -/
def isName : List Char → Bool
  | [] => false
  | c :: cs => startsName c && cs.all continuesName

end ResourceQuery

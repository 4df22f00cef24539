/-
What scanning a query reports while it works.

The events of a query are read off the trace of its scan: one for each token
accepted, one more for a token the machine refuses, and one for reaching the end.
A lexeme that cannot be read is reported by the error alone.
-/
import ResourceQuery.Scan

namespace ResourceQuery

/-- How much an event matters. -/
inductive Level
  | trace
  | debug
  | info
  deriving DecidableEq, Repr

/-- The symbolic name of a level. -/
def Level.name : Level → String
  | trace => "TRACE"
  | debug => "DEBUG"
  | info => "INFO"

/-- Something that happened in a scan. -/
inductive Event
  /-- A token was accepted. -/
  | accepted (token : Token)
  /-- A token was refused. -/
  | refused (token : Token)
  /-- The end was reached behind so many tokens. -/
  | finished (tokens : Nat)
  /-- A query was checked; its stream has so many tokens, the sentinel included. -/
  | checked (tokens : Nat)
  deriving DecidableEq, Repr

namespace Event

/-- How much the event matters. -/
def level : Event → Level
  | accepted _ => .trace
  | refused _ => .debug
  | finished _ => .debug
  | checked _ => .info

/-- The wording of the event. -/
def message : Event → String
  | accepted _ => "token"
  | refused _ => "inadmissible token"
  | finished _ => "tokenized query"
  | checked _ => "query tokenized"

/-- A value that an event carries. -/
inductive Field
  | text (s : String)
  | number (n : Nat)
  deriving DecidableEq, Repr

/-- What the event carries, by name. -/
def fields : Event → List (String × Field)
  | accepted token =>
    [("kind", .text token.kind.name), ("value", .text token.value),
      ("position", .number token.position)]
  | refused token => [("token", .text token.describe)]
  | finished tokens => [("tokens", .number tokens)]
  | checked tokens => [("tokens", .number tokens)]

end Event

/-- The events of a scan, in the order in which they happen. -/
def Trace.events (t : Trace) : List Event :=
  t.tokens.map .accepted ++
    match t.ending with
    | .finished _ _ => [.finished t.tokens.length]
    | .malformed _ => []
    | .refused token => [.refused token]

end ResourceQuery

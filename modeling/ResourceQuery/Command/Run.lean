/-
The command as a function: from its arguments and its standard input to what it
prints and the code it ends with.

The code is 0 for success, 1 if the task fails, and 2 if the arguments cannot be
followed.  What a failing task has to say goes to the error output alone.
-/
import ResourceQuery.Command.Arguments
import ResourceQuery.Command.Manual
import ResourceQuery.Command.Query

namespace ResourceQuery.Command

/-- What the command leaves behind. -/
structure Outcome where
  code : Nat
  output : String
  errorOutput : String
  deriving DecidableEq, Repr

/-- The version of the command. -/
def version : String :=
  "rql 0.2.0"

/-- How the command is used. -/
def usage : String :=
  Manual.ofLines [
    "Usage: rql [-v] <command>",
    "",
    "  tokenize [-f text|json] [-p] [query]   Print the token stream of a query",
    "  check [query]                          Only validate the query",
    "  docs                                   List documentation categories",
    "  doc <category>                         Show a documentation category",
    "",
    "A query that is not given is read from the standard input."]

/-- What the command leaves behind when its arguments name nothing to do. -/
def Stop.outcome : Stop → Outcome
  | help => ⟨0, usage, ""⟩
  | version => ⟨0, Command.version ++ "\n", ""⟩
  | misuse => ⟨2, "", usage⟩

/-- The query to work on: the given one, or else the standard input.  There is no
standard input to read when it is a terminal. -/
def chooseQuery (given : Option String) (input : Option ByteArray) : Except Failure String :=
  match given, input with
  | some query, _ => .ok query
  | none, some bytes =>
    match String.fromUTF8? bytes with
    | some query => .ok query
    | none => .error .notUtf8
  | none, none => .error .noQuery

/-- A text with a line break at its end. -/
def endLine (s : String) : String :=
  if s.toList.getLast? = some '\n' then s else s ++ "\n"

/-- What a task prints. -/
def perform (input : Option ByteArray) : Task → Except Failure String
  | .tokenize given format pretty => do
    let query ← chooseQuery given input
    return endLine (← tokens query format pretty)
  | .check given => do
    let query ← chooseQuery given input
    check query
    return "Syntax is valid\n"
  | .overview => .ok Manual.overview
  | .page name =>
    match Page.ofName? name with
    | some page => .ok page.text
    | none => .error (.unknownPage name)

/-- The query that a task works on. -/
def Task.query (input : Option ByteArray) : Task → Except Failure String
  | tokenize given _ _ => chooseQuery given input
  | check given => chooseQuery given input
  | overview => .error .noQuery
  | page _ => .error .noQuery

/-- An event as a line of the report. -/
def logLine (e : Event) : String :=
  let fields := e.fields.map fun
    | (name, .text s) => " " ++ name ++ "=" ++ s
    | (name, .number n) => " " ++ name ++ "=" ++ toString n
  e.level.name ++ " " ++ e.message ++ String.join fields ++ "\n"

/-- What is reported of a task: the events of its query, but for the single
tokens. -/
def log (input : Option ByteArray) (task : Task) : String :=
  match task.query input with
  | .ok query => String.join (((events query).filter (fun e => e.level ≠ .trace)).map logLine)
  | .error _ => ""

/-- What an invocation leaves behind. -/
def Invocation.outcome (i : Invocation) (input : Option ByteArray) : Outcome :=
  let report := if i.verbose then log input i.task else ""
  match perform input i.task with
  | .ok output => ⟨0, output, report⟩
  | .error failure => ⟨1, "", report ++ failure.message ++ "\n"⟩

/-- What the command leaves behind. -/
def run (args : List String) (input : Option ByteArray) : Outcome :=
  match Invocation.ofArguments args with
  | .ok invocation => invocation.outcome input
  | .error stop => stop.outcome

/-- Whether the arguments name a task that reads its query from the standard
input. -/
def readsInput (args : List String) : Bool :=
  match Invocation.ofArguments args with
  | .ok ⟨.tokenize none _ _, _⟩ => true
  | .ok ⟨.check none, _⟩ => true
  | _ => false

end ResourceQuery.Command

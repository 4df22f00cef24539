/-
What the command does with a query.

A query usually arrives with a line break behind it, so the breaks at its end are
dropped before it is scanned.  Checking a query and printing its tokens scan it the
same way, and fail alike.
-/
import ResourceQuery.Command.Format
import ResourceQuery.Event
import ResourceQuery.Listing
import ResourceQuery.Token.Json

namespace ResourceQuery.Command

/-- Why the command fails. -/
inductive Failure
  /-- The query is refused. -/
  | badQuery (error : SyntaxError)
  /-- The standard input is not UTF-8. -/
  | notUtf8
  /-- There is no query. -/
  | noQuery
  /-- The manual has no such page. -/
  | unknownPage (name : String)
  deriving DecidableEq, Repr

/-- The wording of the failure. -/
def Failure.message : Failure → String
  | badQuery error => "Syntax error: " ++ error.message
  | notUtf8 => "IO error: stream did not contain valid UTF-8"
  | noQuery => "No query provided. Pass it as an argument or pipe it to stdin."
  | unknownPage name =>
    "Unknown category: '" ++ name ++ "'\nRun 'rql docs' to see available categories."

/-- Whether a character breaks a line. -/
def isBreak (c : Char) : Bool :=
  c = '\n' || c = '\r'

/-- A query without the line breaks at its end. -/
def trimBreaks (query : String) : String :=
  String.ofList (query.toList.reverse.dropWhile isBreak).reverse

/-- The scan of a query, without the line breaks at its end. -/
def trace (query : String) : Trace :=
  (Scan.start (trimBreaks query)).run

/-- The tokens of a query, without the line breaks at its end. -/
def stream (query : String) : Except Failure TokenStream :=
  (trace query).result.mapError .badQuery

/-- What scanning a query for the command reports. -/
def events (query : String) : List Event :=
  (trace query).events ++
    match stream query with
    | .ok s => [.checked s.size]
    | .error _ => []

/-- Whether a query is well formed. -/
def check (query : String) : Except Failure Unit :=
  (stream query).map (fun _ => ())

/-- A token stream in a format; only JSON has a pretty form of its own. -/
def present (s : TokenStream) (format : Format) (pretty : Bool) : String :=
  match format, pretty with
  | .text, _ => s.toListing
  | .json, false => s.toJson.render .compact
  | .json, true => s.toJson.render .pretty

/-- The tokens of a query in a format. -/
def tokens (query : String) (format : Format) (pretty : Bool) : Except Failure String :=
  (stream query).map (fun s => present s format pretty)

end ResourceQuery.Command

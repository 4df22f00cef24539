/-
Listings: token streams for people to read.

Each token has a line of its own: its position, right-aligned in four columns,
the name of its kind, padded to the longest name in the stream, and its value in
quotes.
-/
import ResourceQuery.Text.Quoted
import ResourceQuery.TokenStream

namespace ResourceQuery.Listing

/-- The number of columns that positions are aligned in. -/
def positionWidth : Nat := 4

/-- A text with blanks in front, to fill a number of columns. -/
def padLeft (width : Nat) (cs : List Char) : List Char :=
  List.replicate (width - cs.length) ' ' ++ cs

/-- A text with blanks behind, to fill a number of columns. -/
def padRight (width : Nat) (cs : List Char) : List Char :=
  cs ++ List.replicate (width - cs.length) ' '

/-- The length of the longest kind name among some tokens. -/
def kindWidth (tokens : List Token) : Nat :=
  (tokens.map (fun t => t.kind.name.length)).foldl max 0

/-- What stands in front of a token's value. -/
def lead (width : Nat) (t : Token) : List Char :=
  padLeft positionWidth (Nat.toDigits 10 t.position) ++ ' ' :: ' ' ::
    padRight width t.kind.name.toList ++ [' ', ' ']

/-- The line of a token, with kind names padded to a width. -/
def line (width : Nat) (t : Token) : List Char :=
  lead width t ++ Text.Quoted.quote t.value ++ ['\n']

/-- The lines of some tokens. -/
def lines (tokens : List Token) : List (List Char) :=
  tokens.map (line (kindWidth tokens))

end ResourceQuery.Listing

namespace ResourceQuery

/-- The stream as a listing, one token on a line. -/
def TokenStream.toListing (s : TokenStream) : String :=
  String.ofList (Listing.lines s.toList).flatten

end ResourceQuery

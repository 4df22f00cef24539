/-
Token streams: the tokens of a query behind a cursor.

A stream holds at least one token, and its cursor is always on one of them, so
every look at the current token finds one.  The cursor only moves forward, and
stays on the last token once it is there.
-/
import ResourceQuery.SyntaxError

namespace ResourceQuery

/-- The tokens of a query and the one a reader has reached. -/
structure TokenStream where
  tokens : Array Token
  /-- The index of the current token. -/
  cursor : Fin tokens.size
  deriving DecidableEq, Repr

namespace TokenStream

/-- The stream of the tokens of a query that ends at `position`, with the sentinel
behind them and the cursor on the first. -/
def close (tokens : List Token) (position : Nat) : TokenStream :=
  ⟨(tokens ++ [Token.sentinel position]).toArray, ⟨0, by simp⟩⟩

/-- All tokens, wherever the cursor is. -/
def toList (s : TokenStream) : List Token :=
  s.tokens.toList

/-- The number of tokens, the sentinel included. -/
def size (s : TokenStream) : Nat :=
  s.tokens.size

/-- Whether there is no token; a stream always has one. -/
def isEmpty (_ : TokenStream) : Bool :=
  false

/-- The token the cursor is on. -/
def current (s : TokenStream) : Token :=
  s.tokens[s.cursor]

/-- The stream with the cursor one token further, if there is one. -/
def advance (s : TokenStream) : TokenStream :=
  if h : s.cursor.val + 1 < s.tokens.size then ⟨s.tokens, ⟨s.cursor.val + 1, h⟩⟩ else s

/-- The current token, and the stream behind it. -/
def next (s : TokenStream) : Token × TokenStream :=
  (s.current, s.advance)

/-- An index, or the last one if there are not so many tokens. -/
def clamp (s : TokenStream) (index : Nat) : Fin s.tokens.size :=
  ⟨min index (s.tokens.size - 1), by have := s.cursor.isLt; omega⟩

/-- The token `n` places past the cursor, or the last one if there are not so
many. -/
def lookAhead (s : TokenStream) (n : Nat) : Token :=
  s.tokens[s.clamp (s.cursor.val + n)]

/-- Whether the current token is of a kind. -/
def test (s : TokenStream) (kind : Kind) : Bool :=
  s.current.test kind

/-- Whether the current token is of one of some kinds. -/
def testAny (s : TokenStream) (kinds : List Kind) : Bool :=
  kinds.any s.test

/-- The current token if it is of a kind, and the stream behind it; otherwise the
stream as it is. -/
def nextIf (s : TokenStream) (kind : Kind) : Option Token × TokenStream :=
  if s.test kind then (some s.current, s.advance) else (none, s)

/-- The current token, which must be of a kind, and the stream behind it. -/
def expect (s : TokenStream) (kind : Kind) : Except SyntaxError (Token × TokenStream) :=
  if s.test kind then .ok s.next else .error (SyntaxError.ofToken s.current)

/-- Whether the cursor is on the sentinel. -/
def isEnd (s : TokenStream) : Bool :=
  s.current.isEnd

@[simp]
theorem toList_close (tokens : List Token) (position : Nat) :
    (close tokens position).toList = tokens ++ [Token.sentinel position] := by
  simp [close, toList]

@[simp]
theorem toList_advance (s : TokenStream) : s.advance.toList = s.toList := by
  unfold advance
  split <;> rfl

end TokenStream

end ResourceQuery

/-
The spans of literals, and their escapes.

A span is the longest run of characters that stand for themselves and of
escapes, `%` and two hexadecimal digits, each of which stands for one byte.  In a
span that opens like a date, the colons of a time belong to the span too, each
with a digit behind it, so an escape anywhere in a date is seen.

A span keeps its pieces apart: what was written is `text`, and what is meant is
`decoded?`, the text whose UTF-8 form the pieces spell out.  Nothing else tells
an escaped character from one that stands for itself, so everything that asks
whether a character was escaped asks it of the pieces.
-/
import ResourceQuery.Literal.Date
import ResourceQuery.Text.Hexadecimal

namespace ResourceQuery

/-- One item of a span. -/
inductive Piece
  /-- A character that stands for itself. -/
  | raw (c : Char)
  /-- An escaped byte, by its two hexadecimal digits. -/
  | escape (high low : Char)
  deriving DecidableEq, Repr

namespace Piece

/-- A piece as it is written. -/
def text : Piece → List Char
  | raw c => [c]
  | escape high low => ['%', high, low]

/-- The bytes a piece stands for. -/
def bytes : Piece → List UInt8
  | raw c => String.utf8EncodeChar c
  | escape high low => [UInt8.ofNat (16 * hexValue high + hexValue low)]

/-- Whether a piece is an escape. -/
def isEscape : Piece → Bool
  | raw _ => false
  | escape _ _ => true

/-- Whether a piece is a wildcard. -/
def isWildcard : Piece → Bool
  | raw c => c = '*' || c = '?'
  | escape _ _ => false

theorem text_ne_nil (p : Piece) : p.text ≠ [] := by
  cases p <;> simp [text]

end Piece

/-- A run of characters and escapes. -/
structure Span where
  pieces : List Piece
  deriving DecidableEq, Repr

namespace Span

/-- Whether the next character is a digit. -/
def digitFollows : List Char → Bool
  | [] => false
  | c :: _ => c.isDigit

/-- The pieces a text starts with; in a `timed` span a colon in front of a digit is
one. -/
def piecesOf (timed : Bool) : List Char → List Piece
  | [] => []
  | '%' :: high :: low :: cs =>
    if isHexDigit high && isHexDigit low then .escape high low :: piecesOf timed cs else []
  | c :: cs =>
    if isLiteral c || (timed && c = ':' && digitFollows cs) then .raw c :: piecesOf timed cs
    else []

/-- The span a text starts with. -/
def read (cs : List Char) : Span :=
  ⟨piecesOf (Date.opensWith Date.dayShape cs) cs⟩

/-- A span as it is written. -/
def text (s : Span) : List Char :=
  s.pieces.flatMap Piece.text

/-- The number of characters a span takes. -/
def length (s : Span) : Nat :=
  s.text.length

/-- Whether anything in a span is escaped. -/
def isEscaped (s : Span) : Bool :=
  s.pieces.any Piece.isEscape

/-- Whether a span holds a wildcard that is not escaped. -/
def hasWildcard (s : Span) : Bool :=
  s.pieces.any Piece.isWildcard

/-- The bytes a span stands for. -/
def bytes (s : Span) : List UInt8 :=
  s.pieces.flatMap Piece.bytes

/-- The text a span stands for, if its bytes are UTF-8. -/
def decoded? (s : Span) : Option String :=
  String.fromUTF8? s.bytes.toByteArray

theorem length_pos {s : Span} (h : s.pieces ≠ []) : 0 < s.length := by
  unfold length text
  match hp : s.pieces with
  | [] => exact absurd hp h
  | p :: ps =>
    have := List.length_pos_iff.mpr p.text_ne_nil
    simp only [List.flatMap_cons, List.length_append]
    omega

theorem pieces_ne_nil_of_isEscaped {s : Span} (h : s.isEscaped = true) : s.pieces ≠ [] := by
  intro hnil
  simp [isEscaped, hnil] at h

/-- The pieces a text starts with are written just so at its start. -/
theorem text_piecesOf_prefix (timed : Bool) (cs : List Char) :
    (piecesOf timed cs).flatMap Piece.text <+: cs := by
  fun_induction piecesOf timed cs with
  | case1 => simp
  | case2 high low cs _ ih => simpa [Piece.text] using ih
  | case3 => simp
  | case4 c cs _ _ ih => simpa [Piece.text] using ih
  | case5 => simp

/-- What is read as a span is written at the start of the text. -/
theorem text_read_prefix (cs : List Char) : (read cs).text <+: cs :=
  text_piecesOf_prefix _ cs

end Span

end ResourceQuery

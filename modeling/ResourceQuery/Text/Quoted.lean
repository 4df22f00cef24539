/-
Text in quotes.

Quoting keeps a value on one line and free of anything that does not show:
the quote, the backslash and a few controls are escaped by name, characters
that do not show by themselves by their code point in hexadecimal, and the rest is
written as it is.  No escape is the start of another and a backslash only ever
opens one, so the quoted form determines the text.
-/
import ResourceQuery.Text.GraphemeExtend
import ResourceQuery.Text.Unprintable

namespace ResourceQuery.Text.Quoted

/-- The letters among the characters that extend a glyph: the halfwidth voicing
marks of katakana, which take a cell of their own. -/
def extendingLetters : Ranges :=
  [(0xff9e, 0xff9f)]

/-- Whether a character is written by its code point: it has no glyph, or it only
extends the glyph in front of it. -/
def isHidden (c : Char) : Bool :=
  unprintable.contains c || (graphemeExtend.contains c && !extendingLetters.contains c)

/-- The escape of a character by its code point. -/
def codePointEscape (c : Char) : List Char :=
  ['\\', 'u', '\x7b'] ++ Nat.toDigits 16 c.toNat ++ ['\x7d']

/-- A character as it is written between quotes. -/
def encodeChar (c : Char) : List Char :=
  if c = '\x00' then ['\\', '0']
  else if c = '\t' then ['\\', 't']
  else if c = '\n' then ['\\', 'n']
  else if c = '\r' then ['\\', 'r']
  else if c = '"' then ['\\', '"']
  else if c = '\\' then ['\\', '\\']
  else if isHidden c then codePointEscape c
  else [c]

/-- A text as it is written between quotes. -/
def encode (cs : List Char) : List Char :=
  cs.flatMap encodeChar

/-- A text in quotes. -/
def quote (s : String) : List Char :=
  '"' :: encode s.toList ++ ['"']

end ResourceQuery.Text.Quoted

/-
Text in small letters.

Each capital becomes its small letter, by the rules of Unicode that hold for all
languages.  Two capitals need more than the table: dotted capital I becomes two
characters, and capital sigma has another small form at the end of a word.  A
sigma ends a word if a letter stands before it and none behind it, where marks
and the punctuation inside words are passed over.
-/
import ResourceQuery.Text.Cased
import ResourceQuery.Text.CaseIgnorable
import ResourceQuery.Text.SmallLetter

namespace ResourceQuery.Text

/-- Whether the first character that counts has a case. -/
def opensWithCased (cs : List Char) : Bool :=
  (cs.dropWhile caseIgnorable.contains).head?.any cased.contains

/-- The small form of a character between the text before it, last character
first, and the text behind it. -/
def smallForm (before : List Char) (c : Char) (behind : List Char) : List Char :=
  if c = '\u03a3' then
    if opensWithCased before && !opensWithCased behind then ['\u03c2'] else ['\u03c3']
  else if c = '\u0130' then ['i', '\u0307']
  else [Char.ofNat (smallCodePoint c.toNat)]

/-- The small form of a text, behind the text `before`, last character first. -/
def lowercaseBehind (before : List Char) : List Char → List Char
  | [] => []
  | c :: cs => smallForm before c cs ++ lowercaseBehind (c :: before) cs

/-- A text in small letters. -/
def lowercase (s : String) : String :=
  String.ofList (lowercaseBehind [] s.toList)

end ResourceQuery.Text

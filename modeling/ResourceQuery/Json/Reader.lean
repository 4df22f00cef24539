/-
Reading JSON.

The reader follows the grammar of JSON to the letter: no comments, no trailing
commas, no controls inside strings, no leading zeros.  Escapes of surrogates must
come in pairs.  Arrays and objects may be nested to a limit, which is also what the
recursion is on; the items of one array are read by a loop that takes at least one
character each time, so the length of the text bounds it.
-/
import ResourceQuery.Json.Numeral
import ResourceQuery.Text.Hexadecimal

namespace ResourceQuery.Json

/-- Characters that may stand between the parts of a JSON text. -/
def isSpace (c : Char) : Bool :=
  c = ' ' || c = '\n' || c = '\t' || c = '\r'

/-- A text behind the blanks it starts with. -/
def skipSpace (cs : List Char) : List Char :=
  cs.dropWhile isSpace

/-! ### Strings -/

/-- What a character behind a backslash stands for. -/
def namedEscape? (c : Char) : Option Char :=
  if c = '"' then some '"'
  else if c = '\\' then some '\\'
  else if c = '/' then some '/'
  else if c = 'b' then some '\x08'
  else if c = 'f' then some '\x0c'
  else if c = 'n' then some '\n'
  else if c = 'r' then some '\r'
  else if c = 't' then some '\t'
  else none

/-- The value of four hexadecimal digits. -/
def hexUnit? (a b c d : Char) : Option Nat :=
  if [a, b, c, d].all isHexDigit then
    some (((hexValue a * 16 + hexValue b) * 16 + hexValue c) * 16 + hexValue d)
  else none

/-- Whether a unit is the first of a surrogate pair. -/
def isHighSurrogate (n : Nat) : Bool :=
  0xd800 ≤ n && n < 0xdc00

/-- Whether a unit is the second of a surrogate pair. -/
def isLowSurrogate (n : Nat) : Bool :=
  0xdc00 ≤ n && n < 0xe000

/-- The character of a surrogate pair. -/
def pairChar (high low : Nat) : Char :=
  Char.ofNat (0x10000 + (high - 0xd800) * 0x400 + (low - 0xdc00))

/-- What a string holds up to its closing quote, and what follows. -/
def readString? : List Char → Option (List Char × List Char)
  | [] => none
  | '"' :: rest => some ([], rest)
  | '\\' :: 'u' :: a :: b :: c :: d :: rest => do
    let unit ← hexUnit? a b c d
    if isHighSurrogate unit then
      match rest with
      | '\\' :: 'u' :: e :: f :: g :: h :: rest =>
        let second ← hexUnit? e f g h
        if isLowSurrogate second then
          let (cs, rest) ← readString? rest
          some (pairChar unit second :: cs, rest)
        else none
      | _ => none
    else if isLowSurrogate unit then none
    else
      let (cs, rest) ← readString? rest
      some (Char.ofNat unit :: cs, rest)
  | '\\' :: c :: rest => do
    let c ← namedEscape? c
    let (cs, rest) ← readString? rest
    some (c :: cs, rest)
  | c :: rest =>
    if c = '\\' || c.toNat < 0x20 then none
    else do
      let (cs, rest) ← readString? rest
      some (c :: cs, rest)

/-! ### Values -/

/-- A word at the start of a text, and what follows. -/
def readWord? (word : List Char) (value : Json) (cs : List Char) : Option (Json × List Char) :=
  if word.isPrefixOf cs then some (value, cs.drop word.length) else none

/-- A value that holds no other. -/
def readScalar? (cs : List Char) : Option (Json × List Char) :=
  match cs with
  | '"' :: rest => do
    let (s, rest) ← readString? rest
    some (.string (String.ofList s), rest)
  | 'n' :: _ => readWord? ['n', 'u', 'l', 'l'] .null cs
  | 't' :: _ => readWord? ['t', 'r', 'u', 'e'] (.bool true) cs
  | 'f' :: _ => readWord? ['f', 'a', 'l', 's', 'e'] (.bool false) cs
  | _ => do
    let (n, rest) ← Numeral.read? cs
    some (← n.value?, rest)

/-- A way to read a value from the start of a text. -/
abbrev ValueReader := List Char → Option (Json × List Char)

/-- The items of an array up to its closing bracket, at least one; no more than
`bound` of them. -/
def readItems? (value : ValueReader) : (bound : Nat) → List Char → Option (List Json × List Char)
  | 0, _ => none
  | bound + 1, cs => do
    let (item, rest) ← value cs
    match skipSpace rest with
    | ',' :: rest =>
      let (items, rest) ← readItems? value bound rest
      some (item :: items, rest)
    | ']' :: rest => some ([item], rest)
    | _ => none

/-- A member of an object. -/
def readMember? (value : ValueReader) (cs : List Char) :
    Option ((String × Json) × List Char) :=
  match skipSpace cs with
  | '"' :: rest => do
    let (name, rest) ← readString? rest
    match skipSpace rest with
    | ':' :: rest =>
      let (j, rest) ← value rest
      some ((String.ofList name, j), rest)
    | _ => none
  | _ => none

/-- The members of an object up to its closing brace, at least one; no more than
`bound` of them. -/
def readMembers? (value : ValueReader) :
    (bound : Nat) → List Char → Option (List (String × Json) × List Char)
  | 0, _ => none
  | bound + 1, cs => do
    let (member, rest) ← readMember? value cs
    match skipSpace rest with
    | ',' :: rest =>
      let (members, rest) ← readMembers? value bound rest
      some (member :: members, rest)
    | '\x7d' :: rest => some ([member], rest)
    | _ => none

/-- An array, from the text behind its opening bracket. -/
def readArray? (value : ValueReader) (cs : List Char) : Option (Json × List Char) :=
  match skipSpace cs with
  | ']' :: rest => some (.array [], rest)
  | _ => do
    let (items, rest) ← readItems? value cs.length cs
    some (.array items, rest)

/-- An object, from the text behind its opening brace. -/
def readObject? (value : ValueReader) (cs : List Char) : Option (Json × List Char) :=
  match skipSpace cs with
  | '\x7d' :: rest => some (.object [], rest)
  | _ => do
    let (members, rest) ← readMembers? value cs.length cs
    some (ofMembers members, rest)

/-- The value a text starts with, and what follows; arrays and objects may be nested
`depth` levels deep. -/
def readValue? : (depth : Nat) → ValueReader
  | 0, cs => readScalar? (skipSpace cs)
  | depth + 1, cs =>
    match skipSpace cs with
    | '[' :: rest => readArray? (readValue? depth) rest
    | '\x7b' :: rest => readObject? (readValue? depth) rest
    | rest => readScalar? rest

/-- How deep arrays and objects may be nested. -/
def depthLimit : Nat := 127

/-- The value that a whole text stands for. -/
def parse? (s : String) : Option Json := do
  let (j, rest) ← readValue? depthLimit s.toList
  if (skipSpace rest).isEmpty then some j else none

end ResourceQuery.Json

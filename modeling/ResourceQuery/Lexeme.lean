/-
Lexemes: what one token is read from.

Reading is decided by the character a text starts with.  Punctuation, comparisons
and signs are told by it alone; anything else is a literal.  A literal with an
escape in it is text, whatever it looks like otherwise.  A literal without one is
the first of these that fits: a constant, a date, a number, and then, by its span
and the character behind it, a glob, an operator about to be called, the name of
a type, or text.

Reading looks past the lexeme: at the character behind a literal, and at whether
a comparison follows text, which makes the text a field.
-/
import ResourceQuery.Comparison
import ResourceQuery.Literal.Constant
import ResourceQuery.Literal.Number
import ResourceQuery.Literal.Span
import ResourceQuery.Grammar.Symbol
import ResourceQuery.SyntaxError

namespace ResourceQuery

/-- A token without its place: what the grammar sees of it, its value, and how
many characters of the query it takes. -/
structure Lexeme where
  symbol : Symbol
  value : String
  length : Nat
  deriving DecidableEq, Repr

namespace Lexeme

/-- The token that a lexeme is at a place of the query. -/
def token (l : Lexeme) (position : Nat) : Token :=
  ⟨l.symbol.kind, l.value, position⟩

/-- A lexeme whose value is what is written. -/
def verbatim (kind : Kind) (text : List Char) : Lexeme :=
  ⟨.plain kind, String.ofList text, text.length⟩

/-- The kind of a punctuation character. -/
def punctuation? : Char → Option Kind
  | '(' => some .openParenthesis
  | ')' => some .closeParenthesis
  | ',' => some .comma
  | ':' => some .colon
  | '&' => some .ampersand
  | '|' => some .verticalBar
  | _ => none

/-- The kind of a sign that stands alone. -/
def sign? : Char → Option Kind
  | '+' => some .plus
  | '-' => some .minus
  | _ => none

/-- Text in front of `rest`: a field if a comparison follows. -/
def textSymbol (rest : List Char) : Symbol :=
  if Comparison.follows rest then .field else .plain .string

/-- A comparison at the start of `cs`, which starts with `c`. -/
def readComparison (c : Char) (cs : List Char) : Except Fault Lexeme :=
  match Comparison.read? cs with
  | some (length, name) => .ok ⟨.comparison, name, length⟩
  | none => .error (.unknownCharacter c)

/-- A sign at the start of `cs`: it belongs to a number if one follows, and stands
alone otherwise. -/
def readSigned (kind : Kind) (cs : List Char) : Lexeme :=
  match Number.read? cs with
  | some (length, numeric) => verbatim numeric (cs.take length)
  | none => verbatim kind (cs.take 1)

/-- A span in front of `rest` that is no constant, date or number. -/
def readWord (span : Span) (rest : List Char) : Lexeme :=
  if span.hasWildcard then verbatim .glob span.text
  else if rest.head? = some '(' && isName span.text then verbatim .operator span.text
  else if rest.head? = some ':' && isName span.text then verbatim .typeName span.text
  else ⟨textSymbol rest, String.ofList span.text, span.length⟩

/-- A literal without escapes at the start of `cs`, which starts with `c` and with
`span`. -/
def readUnescaped (c : Char) (cs : List Char) (span : Span) : Except Fault Lexeme :=
  match Constant.read? cs with
  | some (length, kind) => .ok (verbatim kind (cs.take length))
  | none =>
    match Date.read cs with
    | .complete => .ok (verbatim .date (cs.take Date.shape.length))
    | .incomplete length => .error (.incompleteDate (String.ofList (cs.take length)))
    | .absent =>
      match Number.read? cs with
      | some (length, kind) => .ok (verbatim kind (cs.take length))
      | none =>
        if span.pieces = [] then .error (.unknownCharacter c)
        else .ok (readWord span (cs.drop span.length))

/-- A literal with escapes, in front of `rest`. -/
def readEscaped (span : Span) (rest : List Char) : Except Fault Lexeme :=
  match span.decoded? with
  | some value => .ok ⟨textSymbol rest, value, span.length⟩
  | none => .error (.undecodable (String.ofList span.text))

/-- The text cited where a span runs into a `%` that opens no escape: the span,
the `%`, and the hexadecimal digits behind it, of which there is at most one. -/
def malformedText (span : Span) (cs : List Char) : List Char :=
  span.text ++ '%' :: (cs.drop (span.length + 1)).takeWhile isHexDigit

/-- A literal at the start of `cs`, which starts with `c`. -/
def readLiteral (c : Char) (cs : List Char) : Except Fault Lexeme :=
  let span := Span.read cs
  if (cs.drop span.length).head? = some '%' then
    .error (.malformedEscape (String.ofList (malformedText span cs)))
  else if span.isEscaped then readEscaped span (cs.drop span.length)
  else readUnescaped c cs span

/-- The lexeme at the start of a text, given as its first character and the
rest. -/
def read (c : Char) (cs : List Char) : Except Fault Lexeme :=
  match punctuation? c with
  | some kind => .ok (verbatim kind [c])
  | none =>
    if Comparison.opens c then readComparison c (c :: cs)
    else
      match sign? c with
      | some kind => .ok (readSigned kind (c :: cs))
      | none => readLiteral c (c :: cs)

/-! ### Every lexeme takes at least one character

The scan goes on behind the lexeme it has read, so this is what makes it end.
Each recogniser takes at least one character of a text that has one.
-/

theorem verbatim_length_pos {kind : Kind} {text : List Char} (h : text ≠ []) :
    0 < (verbatim kind text).length :=
  List.length_pos_iff.mpr h

theorem take_ne_nil {c : Char} {cs : List Char} {n : Nat} (h : 0 < n) :
    (c :: cs).take n ≠ [] := by
  obtain ⟨m, rfl⟩ := Nat.exists_eq_succ_of_ne_zero (Nat.ne_of_gt h)
  simp

theorem readComparison_length_pos {c : Char} {cs : List Char} {l : Lexeme}
    (h : readComparison c cs = .ok l) : 0 < l.length := by
  unfold readComparison at h
  split at h
  · rename_i n name hread
    cases h
    exact Comparison.read?_length_pos hread
  · cases h

theorem readSigned_length_pos (kind : Kind) (c : Char) (cs : List Char) :
    0 < (readSigned kind (c :: cs)).length := by
  unfold readSigned
  split
  · rename_i hread
    exact verbatim_length_pos (take_ne_nil (Number.read?_length_pos hread))
  · exact verbatim_length_pos (take_ne_nil Nat.one_pos)

theorem text_ne_nil {span : Span} (h : span.pieces ≠ []) : span.text ≠ [] :=
  List.length_pos_iff.mp (Span.length_pos h)

theorem readWord_length_pos {span : Span} (h : span.pieces ≠ []) (rest : List Char) :
    0 < (readWord span rest).length := by
  unfold readWord
  split
  · exact verbatim_length_pos (text_ne_nil h)
  · split
    · exact verbatim_length_pos (text_ne_nil h)
    · split
      · exact verbatim_length_pos (text_ne_nil h)
      · exact Span.length_pos h

theorem readUnescaped_length_pos {c d : Char} {cs : List Char} {span : Span} {l : Lexeme}
    (h : readUnescaped d (c :: cs) span = .ok l) : 0 < l.length := by
  unfold readUnescaped at h
  split at h
  · rename_i hread
    cases h
    exact verbatim_length_pos (take_ne_nil (Constant.read?_length_pos hread))
  · split at h
    · cases h
      exact verbatim_length_pos (take_ne_nil (by decide))
    · cases h
    · split at h
      · rename_i hread
        cases h
        exact verbatim_length_pos (take_ne_nil (Number.read?_length_pos hread))
      · split at h
        · cases h
        · rename_i hspan
          cases h
          exact readWord_length_pos hspan _

theorem readEscaped_length_pos {span : Span} {rest : List Char} {l : Lexeme}
    (hspan : span.pieces ≠ []) (h : readEscaped span rest = .ok l) : 0 < l.length := by
  unfold readEscaped at h
  split at h
  · cases h
    exact Span.length_pos hspan
  · cases h

theorem readLiteral_length_pos {c d : Char} {cs : List Char} {l : Lexeme}
    (h : readLiteral d (c :: cs) = .ok l) : 0 < l.length := by
  simp only [readLiteral] at h
  split at h
  · cases h
  · split at h
    · rename_i hescaped
      exact readEscaped_length_pos (Span.pieces_ne_nil_of_isEscaped hescaped) h
    · exact readUnescaped_length_pos h

/-- A lexeme takes at least one character. -/
theorem read_length_pos {c : Char} {cs : List Char} {l : Lexeme} (h : read c cs = .ok l) :
    0 < l.length := by
  unfold read at h
  split at h
  · cases h
    exact verbatim_length_pos (List.cons_ne_nil _ _)
  · split at h
    · exact readComparison_length_pos h
    · split at h
      · cases h
        exact readSigned_length_pos _ _ _
      · exact readLiteral_length_pos h

end Lexeme

end ResourceQuery

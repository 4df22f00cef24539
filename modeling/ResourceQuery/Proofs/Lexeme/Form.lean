/-
What a token of each kind is written as.

`Form` is the lexical grammar of the kinds whose value is what is written, and
`Denotes` adds the two kinds of token whose value is not: text, which stands for the
bytes its escapes and characters spell out, and comparisons, which stand for an
operator.  Neither looks at what stands around a token or at the order in which the
recognisers are tried; that every lexeme is read from a text of its form is what this
file proves.
-/
import ResourceQuery.Proofs.Lexeme.Reading
import ResourceQuery.Proofs.Literal.Encoding

namespace ResourceQuery

open Number (Digits OptionalSign Decimal OptionalExponent Numeral)

/-- The names of operators and types, as they are written. -/
inductive Name : List Char → Prop
  | mk {c : Char} {cs : List Char} (head : c.isAlpha = true ∨ c = '_')
      (tail : ∀ d ∈ cs, d.isAlphanum = true ∨ d = '_') : Name (c :: cs)

/-- The written forms of the kinds whose value is what is written. -/
inductive Form : Kind → List Char → Prop
  | openParenthesis : Form .openParenthesis ['(']
  | closeParenthesis : Form .closeParenthesis [')']
  | comma : Form .comma [',']
  | colon : Form .colon [':']
  | ampersand : Form .ampersand ['&']
  | verticalBar : Form .verticalBar ['|']
  | plus : Form .plus ['+']
  | minus : Form .minus ['-']
  | integer {s ds : List Char} (sign : OptionalSign s) (digits : Digits ds) :
      Form .integer (s ++ ds)
  | float {s d e : List Char} (sign : OptionalSign s) (decimal : Decimal d)
      (exponent : OptionalExponent e) (fractional : '.' ∈ d ∨ e ≠ []) :
      Form .float (s ++ (d ++ e))
  | date {raw : List Char} (written : Date.Written raw) : Form .date raw
  | glob {raw : List Char} (head : raw.head? ≠ some '-')
      (literal : ∀ c ∈ raw, isLiteral c = true) (wildcard : '*' ∈ raw ∨ '?' ∈ raw) :
      Form .glob raw
  | nullConstant : Form .nullConstant ['n', 'u', 'l', 'l', '(', ')']
  | trueConstant : Form .trueConstant ['t', 'r', 'u', 'e', '(', ')']
  | falseConstant : Form .falseConstant ['f', 'a', 'l', 's', 'e', '(', ')']
  | emptyConstant : Form .emptyConstant ['e', 'm', 'p', 't', 'y', '(', ')']
  | typeName {raw : List Char} (name : Name raw) : Form .typeName raw
  | operator {raw : List Char} (name : Name raw) : Form .operator raw

/-- A written text is a token of a kind, with a value. -/
inductive Denotes : List Char → Kind → String → Prop
  | verbatim {raw : List Char} {kind : Kind} (form : Form kind raw) :
      Denotes raw kind (String.ofList raw)
  | text {raw : List Char} {value : String} {bs : List UInt8}
      (chars : ∀ c ∈ raw, continuesLiteral c = true ∨ c = ':') (encodes : Encodes raw bs)
      (bytes : value.toByteArray = bs.toByteArray) : Denotes raw .string value
  | comparison {raw : List Char} {operator : String}
      (spelling : Comparison.Spelling raw operator) : Denotes raw .operator operator

variable {raw rest : List Char} {kind : Kind} {value : String}

/-! ### Only text has escapes -/

theorem Name.isLiteral (h : Name raw) : ∀ c ∈ raw, isLiteral c = true := by
  obtain ⟨head, tail⟩ := h
  intro d hd
  rcases List.mem_cons.mp hd with rfl | hd
  · rcases head with hd | rfl
    · exact isLiteral_of_continuesName (Comparison.continuesName_of_isAlpha hd)
    · rfl
  · rcases tail d hd with hd | rfl
    · simp [ResourceQuery.isLiteral, hd]
    · rfl

theorem not_mem_percent (h : ∀ c ∈ raw, isLiteral c = true) : '%' ∉ raw := by
  intro hmem
  cases h '%' hmem

theorem Number.Numeral.no_percent (h : Numeral raw) : '%' ∉ raw := by
  intro hmem
  rcases h.isLiteral_or '%' hmem with h | h <;> cases h

theorem Date.Written.no_percent (h : Date.Written raw) : '%' ∉ raw := by
  obtain ⟨digits⟩ := h
  have hdigits := fun c hc => Span.ne_percent_of_isLiteral (isLiteral_of_isDigit (digits c hc))
  simp only [List.mem_cons, List.not_mem_nil, or_false, forall_eq_or_imp, forall_eq] at hdigits
  simp [hdigits, eq_comm]

theorem Form.no_percent (h : Form kind raw) : '%' ∉ raw := by
  cases h with
  | integer sign digits =>
      have := (Numeral.mk sign (.whole digits) .none).no_percent
      simpa using this
  | float sign decimal exponent => exact (Numeral.mk sign decimal exponent).no_percent
  | date written => exact written.no_percent
  | glob _ literal => exact not_mem_percent literal
  | typeName name => exact not_mem_percent name.isLiteral
  | operator name => exact not_mem_percent name.isLiteral
  | _ => decide

theorem Comparison.Spelling.no_percent (h : Comparison.Spelling raw value) : '%' ∉ raw := by
  cases h with
  | named head tail =>
      intro hmem
      simp only [List.mem_cons, List.mem_append, List.not_mem_nil, or_false] at hmem
      rcases hmem with hmem | (rfl | hmem) | hmem
      · cases hmem
      · cases head
      · cases tail _ hmem
      · cases hmem
  | _ => decide

theorem Denotes.no_percent (h : Denotes raw kind value) (hkind : kind ≠ .string) :
    '%' ∉ raw := by
  cases h with
  | verbatim form => exact form.no_percent
  | text => exact absurd rfl hkind
  | comparison spelling => exact spelling.no_percent

/-! ### What is read has its form -/

theorem form_of_punctuation? {c : Char} (h : Lexeme.punctuation? c = some kind) :
    Form kind [c] := by
  unfold Lexeme.punctuation? at h
  split at h <;> cases h <;> constructor

theorem form_of_sign? {c : Char} (h : Lexeme.sign? c = some kind) : Form kind [c] := by
  unfold Lexeme.sign? at h
  split at h <;> cases h <;> constructor

theorem form_of_constant (h : (raw, kind) ∈ Constant.forms) : Form kind raw := by
  simp only [Constant.forms, List.mem_cons, List.not_mem_nil, or_false, Prod.mk.injEq] at h
  rcases h with ⟨rfl, rfl⟩ | ⟨rfl, rfl⟩ | ⟨rfl, rfl⟩ | ⟨rfl, rfl⟩ <;> constructor

theorem form_of_numeral (h : Numeral raw) : Form (Number.kind raw) raw := by
  obtain ⟨sign, decimal, exponent⟩ := h
  rw [Number.kind_numeral sign decimal exponent]
  split
  · rename_i hfractional
    exact .float sign decimal exponent hfractional
  · rename_i hfractional
    simp only [not_or, ne_eq, Decidable.not_not] at hfractional
    obtain ⟨hpoint, rfl⟩ := hfractional
    rw [List.append_nil]
    exact .integer sign (decimal.digits_iff.mpr hpoint)

theorem name_of_isName (h : isName raw = true) : Name raw := by
  cases raw with
  | nil => cases h
  | cons c cs =>
      simp only [isName, startsName, continuesName, Bool.and_eq_true, Bool.or_eq_true,
        decide_eq_true_eq, List.all_eq_true] at h
      exact .mk h.1 h.2

@[simp] theorem kind_textSymbol (rest : List Char) :
    (Lexeme.textSymbol rest).kind = .string := by
  unfold Lexeme.textSymbol
  split <;> rfl

theorem denotes_text (hraw : ∀ c ∈ raw, isLiteral c = true) :
    Denotes raw .string (String.ofList raw) := by
  refine .text (fun c hc => .inl (continuesLiteral_of_isLiteral (hraw c hc)))
    (encodes_of_ne (not_mem_percent hraw)) ?_
  rw [String.toByteArray_ofList]
  rfl

theorem denotes_readWord (hhead : raw.head? ≠ some '-') (hraw : ∀ c ∈ raw, isLiteral c = true) :
    Denotes raw (Lexeme.readWord (Span.ofChars raw) rest).symbol.kind
      (Lexeme.readWord (Span.ofChars raw) rest).value := by
  simp only [Lexeme.readWord, Span.text_ofChars]
  split
  · rename_i hwildcard
    exact .verbatim (.glob hhead hraw ((Span.hasWildcard_ofChars_iff raw).mp hwildcard))
  · split
    · rename_i hname
      rw [Bool.and_eq_true] at hname
      exact .verbatim (.operator (name_of_isName hname.2))
    · split
      · rename_i hname
        rw [Bool.and_eq_true] at hname
        exact .verbatim (.typeName (name_of_isName hname.2))
      · rw [kind_textSymbol]
        exact denotes_text hraw

theorem denotes_escaped {span : Span} (hwhole : Span.read (span.text ++ rest) = span)
    (hdecoded : span.decoded? = some value) : Denotes span.text .string value := by
  have hpieces := congrArg Span.pieces hwhole
  exact .text (Span.continuesLiteral_or_of_piecesOf hpieces) (Span.encodes_of_piecesOf hpieces)
    (fromUTF8?_eq_some_iff.mp hdecoded)

theorem Form.kind_ne_string (h : Form kind raw) : kind ≠ .string := by
  cases h <;> intro hkind <;> cases hkind

/-- **A lexeme is read from a text that denotes it.** -/
theorem Lexeme.Reading.denotes {l : Lexeme} (h : Lexeme.Reading raw rest l) :
    Denotes raw l.symbol.kind l.value := by
  cases h with
  | punctuation h => exact .verbatim (form_of_punctuation? h)
  | comparison spelling => exact .comparison spelling
  | sign h => exact .verbatim (form_of_sign? h)
  | number numeral => exact .verbatim (form_of_numeral numeral)
  | constant form => exact .verbatim (form_of_constant form)
  | date written => exact .verbatim (.date written)
  | escaped head whole ends escaped decoded =>
      rw [kind_textSymbol]
      exact denotes_escaped whole decoded
  | word word => exact denotes_readWord word.head word.literal

end ResourceQuery

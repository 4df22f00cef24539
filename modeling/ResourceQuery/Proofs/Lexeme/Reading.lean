/-
The rules by which a lexeme is read.

`Lexeme.read` tries one recogniser after another, and which one answers depends on
all those before it.  `Reading raw rest l` says outright when `raw`, in front of
`rest`, is the lexeme `l`: one rule for each way, with everything the rule asks of
`raw` and of what stands behind it.  `read_eq_ok_iff` is that the rules and the
recognisers agree.

What a rule asks of `rest` is all that a lexeme can see of the text behind it, so
whoever wants to know what becomes of a lexeme in front of another text has only
these rules to look at.
-/
import ResourceQuery.Lexeme
import ResourceQuery.Proofs.Lexeme.Spelling
import ResourceQuery.Proofs.Literal.Span

namespace ResourceQuery

namespace Constant

/-- The words of the constants. -/
inductive Word : List Char → Kind → Prop
  | nullConstant : Word ['n', 'u', 'l', 'l'] .nullConstant
  | trueConstant : Word ['t', 'r', 'u', 'e'] .trueConstant
  | falseConstant : Word ['f', 'a', 'l', 's', 'e'] .falseConstant
  | emptyConstant : Word ['e', 'm', 'p', 't', 'y'] .emptyConstant

variable {raw rest cs : List Char} {n : Nat} {kind : Kind}

/-- A constant is a word and a pair of parentheses. -/
theorem mem_forms_iff :
    (raw, kind) ∈ forms ↔ ∃ word, Word word kind ∧ raw = word ++ ['(', ')'] := by
  constructor
  · intro h
    simp only [forms, List.mem_cons, List.not_mem_nil, or_false, Prod.mk.injEq] at h
    rcases h with ⟨rfl, rfl⟩ | ⟨rfl, rfl⟩ | ⟨rfl, rfl⟩ | ⟨rfl, rfl⟩
    · exact ⟨_, .nullConstant, rfl⟩
    · exact ⟨_, .trueConstant, rfl⟩
    · exact ⟨_, .falseConstant, rfl⟩
    · exact ⟨_, .emptyConstant, rfl⟩
  · rintro ⟨word, hword, rfl⟩
    cases hword <;> simp [forms]

theorem Word.exists_cons {word : List Char} (h : Word word kind) :
    ∃ c cs, word = c :: cs ∧ c.isAlpha = true := by
  cases h <;> exact ⟨_, _, rfl, rfl⟩

theorem Word.isLiteral {word : List Char} (h : Word word kind) :
    ∀ c ∈ word, isLiteral c = true := by
  cases h <;> exact List.all_eq_true.mp rfl

theorem read?_append (h : (raw, kind) ∈ forms) :
    read? (raw ++ rest) = some (raw.length, kind) := by
  simp only [forms, List.mem_cons, List.not_mem_nil, or_false, Prod.mk.injEq] at h
  rcases h with ⟨rfl, rfl⟩ | ⟨rfl, rfl⟩ | ⟨rfl, rfl⟩ | ⟨rfl, rfl⟩ <;> simp [read?, forms]

theorem form_of_read? (h : read? cs = some (n, kind)) :
    ∃ raw rest, cs = raw ++ rest ∧ n = raw.length ∧ (raw, kind) ∈ forms := by
  obtain ⟨⟨raw, _⟩, hfind, hform⟩ := Option.map_eq_some_iff.mp h
  obtain ⟨rfl, rfl⟩ := Prod.mk.inj hform
  have hprefix : raw.isPrefixOf cs = true := by simpa using List.find?_some hfind
  obtain ⟨rest, rfl⟩ := List.isPrefixOf_iff_prefix.mp hprefix
  exact ⟨raw, rest, rfl, rfl, List.mem_of_find?_eq_some hfind⟩

theorem exists_word_of_mem_forms (h : (raw, kind) ∈ forms) :
    ∃ c word, raw = c :: word ++ ['(', ')'] ∧ (∀ d ∈ c :: word, isLiteral d = true) ∧
      c.isAlpha = true := by
  obtain ⟨word, hword, rfl⟩ := mem_forms_iff.mp h
  obtain ⟨c, word, rfl, hc⟩ := hword.exists_cons
  exact ⟨c, word, rfl, hword.isLiteral, hc⟩

/-- Where the literal characters end, a constant is all of them and the parentheses
there. -/
theorem word_of_read? (hraw : ∀ c ∈ raw, isLiteral c = true) (hrest : Stops isLiteral rest)
    (h : read? (raw ++ rest) = some (n, kind)) : Word raw kind ∧ ['(', ')'] <+: rest := by
  obtain ⟨form, after, htext, -, hform⟩ := form_of_read? h
  obtain ⟨word, hword, rfl⟩ := mem_forms_iff.mp hform
  rw [List.append_assoc] at htext
  have hparenthesis : Stops ResourceQuery.isLiteral (['(', ')'] ++ after) := Stops.cons_iff.mpr rfl
  have hraw' : raw = word := by
    rw [← takeWhile_append_stops hraw hrest, htext]
    exact takeWhile_append_stops hword.isLiteral hparenthesis
  subst hraw'
  exact ⟨hword, after, (List.append_cancel_left htext).symm⟩

theorem read?_eq_none {c : Char} (hc : c.isAlpha = false) : read? (c :: cs) = none := by
  cases hread : read? (c :: cs) with
  | none => rfl
  | some found =>
      obtain ⟨raw, rest, hcs, -, hform⟩ := form_of_read? hread
      obtain ⟨d, word, rfl, -, hd⟩ := exists_word_of_mem_forms hform
      obtain ⟨rfl, -⟩ := List.cons.inj hcs
      rw [hc] at hd
      cases hd

end Constant

namespace Lexeme

/-- Literal characters that are no constant, date or number, read whole. -/
structure IsWord (raw rest : List Char) : Prop where
  ne_nil : raw ≠ []
  head : raw.head? ≠ some '-'
  literal : ∀ c ∈ raw, isLiteral c = true
  ends : Stops continuesLiteral rest
  no_constant : Constant.read? (raw ++ rest) = none
  no_date : Date.opensWith Date.dayShape raw = false
  no_number : Number.read? (raw ++ rest) = none

/-- A text is read as a lexeme in front of another text. -/
inductive Reading : List Char → List Char → Lexeme → Prop
  | punctuation {c : Char} {kind : Kind} {rest : List Char} (h : punctuation? c = some kind) :
      Reading [c] rest (verbatim kind [c])
  | comparison {raw rest : List Char} {operator : String}
      (spelling : Comparison.Spelling raw operator) (longest : Comparison.Longest raw rest) :
      Reading raw rest ⟨.comparison, operator, raw.length⟩
  | sign {c : Char} {kind : Kind} {rest : List Char} (h : sign? c = some kind)
      (no_number : Number.read? (c :: rest) = none) : Reading [c] rest (verbatim kind [c])
  | number {raw rest : List Char} (numeral : Number.Numeral raw)
      (ends : Stops continuesLiteral rest) : Reading raw rest (verbatim (Number.kind raw) raw)
  | constant {raw rest : List Char} {kind : Kind} (form : (raw, kind) ∈ Constant.forms) :
      Reading raw rest (verbatim kind raw)
  | date {raw rest : List Char} (written : Date.Written raw)
      (ends : Stops continuesLiteral rest) (plain : Span.EscapeFree true rest) :
      Reading raw rest (verbatim .date raw)
  | escaped {span : Span} {rest : List Char} {value : String}
      (head : span.text.head? ≠ some '-') (whole : Span.read (span.text ++ rest) = span)
      (ends : Stops continuesLiteral rest) (escaped : span.isEscaped = true)
      (decoded : span.decoded? = some value) :
      Reading span.text rest ⟨textSymbol rest, value, span.length⟩
  | word {raw rest : List Char} (word : IsWord raw rest) :
      Reading raw rest (readWord (Span.ofChars raw) rest)

variable {raw rest cs : List Char} {c : Char} {l : Lexeme} {kind : Kind}

theorem not_isAlpha_of_isDigit (h : c.isDigit = true) : c.isAlpha = false := by
  have hdigit : '0'.val ≤ c.val ∧ c.val ≤ '9'.val := by simpa [Char.isDigit] using h
  show (decide ('A'.val ≤ c.val ∧ c.val ≤ 'Z'.val) ||
    (decide ('a'.val ≤ c.val) && decide (c.val ≤ 'z'.val))) = false
  simp only [Bool.or_eq_false_iff, Bool.and_eq_false_iff, decide_eq_false_iff_not,
    UInt32.le_iff_toNat_le] at hdigit ⊢
  have h9 : '9'.val.toNat = 57 := rfl
  have hA : 'A'.val.toNat = 65 := rfl
  have ha : 'a'.val.toNat = 97 := rfl
  omega

theorem ne_minus_of_isDigit (h : c.isDigit = true) : c ≠ '-' := by
  rintro rfl
  cases h

@[simp] theorem length_verbatim (kind : Kind) (raw : List Char) :
    (verbatim kind raw).length = raw.length := rfl

@[simp] theorem length_readWord (span : Span) (rest : List Char) :
    (readWord span rest).length = span.length := by
  unfold readWord
  split
  · rfl
  · split
    · rfl
    · split <;> rfl

theorem Reading.length (h : Reading raw rest l) : l.length = raw.length := by
  cases h <;> simp [Span.length]

/-! ### What a lexeme starts with -/

theorem IsWord.exists_cons (h : IsWord raw rest) :
    ∃ c cs, raw = c :: cs ∧ continuesLiteral c = true := by
  obtain ⟨c, cs, rfl⟩ := List.exists_cons_of_ne_nil h.ne_nil
  exact ⟨c, cs, rfl, continuesLiteral_of_isLiteral (h.literal c List.mem_cons_self)⟩

theorem not_isBlank_of_punctuation? (h : punctuation? c = some kind) : isBlank c = false := by
  unfold punctuation? at h
  split at h <;> first | rfl | cases h

theorem not_isBlank_of_sign? (h : sign? c = some kind) : isBlank c = false := by
  unfold sign? at h
  split at h <;> first | rfl | cases h

/-- A lexeme is not empty and starts with no blank. -/
theorem Reading.exists_cons (h : Reading raw rest l) :
    ∃ c cs, raw = c :: cs ∧ isBlank c = false := by
  cases h with
  | punctuation h => exact ⟨_, _, rfl, not_isBlank_of_punctuation? h⟩
  | comparison spelling longest => cases spelling <;> exact ⟨_, _, rfl, rfl⟩
  | sign h => exact ⟨_, _, rfl, not_isBlank_of_sign? h⟩
  | number numeral =>
      obtain ⟨c, cs, rfl⟩ := List.exists_cons_of_ne_nil numeral.ne_nil
      refine ⟨c, cs, rfl, ?_⟩
      rcases numeral.isLiteral_or c List.mem_cons_self with hc | rfl
      · exact not_isBlank_of_continuesLiteral (continuesLiteral_of_isLiteral hc)
      · rfl
  | constant form =>
      obtain ⟨c, word, rfl, hword, -⟩ := Constant.exists_word_of_mem_forms form
      have hc := hword c List.mem_cons_self
      exact ⟨c, _, rfl, not_isBlank_of_continuesLiteral (continuesLiteral_of_isLiteral hc)⟩
  | date written =>
      obtain ⟨digits⟩ := written
      have hdigit := digits _ List.mem_cons_self
      exact ⟨_, _, rfl, not_isBlank_of_continuesLiteral
        (continuesLiteral_of_isDigit hdigit)⟩
  | @escaped span _ _ head whole ends escaped =>
      obtain ⟨c, cs, htext, hc⟩ := Span.exists_cons_of_isEscaped whole escaped
      exact ⟨c, cs, htext, not_isBlank_of_continuesLiteral hc⟩
  | word word =>
      obtain ⟨c, cs, rfl, hc⟩ := word.exists_cons
      exact ⟨c, cs, rfl, not_isBlank_of_continuesLiteral hc⟩

/-! ### Which recogniser the first character chooses -/

theorem punctuation?_of_continuesLiteral (h : continuesLiteral c = true) :
    punctuation? c = none := by
  unfold punctuation?
  split <;> first | rfl | exact absurd h (by decide)

theorem opens_of_continuesLiteral (h : continuesLiteral c = true) :
    Comparison.opens c = false := by
  rw [Bool.eq_false_iff]
  intro hopens
  simp only [Comparison.opens, Bool.or_eq_true, decide_eq_true_eq] at hopens
  rcases hopens with ((rfl | rfl) | rfl) | rfl <;> exact absurd h (by decide)

theorem sign?_of_continuesLiteral (h : continuesLiteral c = true) (hc : c ≠ '-') :
    sign? c = none := by
  unfold sign?
  split
  · exact absurd h (by decide)
  · exact absurd rfl hc
  · rfl

theorem ne_of_sign? (h : sign? c = none) : c ≠ '+' ∧ c ≠ '-' := by
  constructor <;> rintro rfl <;> cases h

theorem read_of_continuesLiteral (h : continuesLiteral c = true) (hc : c ≠ '-') :
    read c cs = readLiteral c (c :: cs) := by
  simp [read, punctuation?_of_continuesLiteral h, opens_of_continuesLiteral h,
    sign?_of_continuesLiteral h hc]

theorem read_of_sign (h : sign? c = some kind) : read c cs = .ok (readSigned kind (c :: cs)) := by
  unfold sign? at h
  split at h <;> cases h <;> rfl

theorem read_of_spelling {operator : String} (h : Comparison.Spelling raw operator)
    (hcs : c :: cs = raw ++ rest) : read c cs = readComparison c (c :: cs) := by
  have hc : c = '=' ∨ c = '!' ∨ c = '<' ∨ c = '>' := by
    cases h <;> simp_all
  rcases hc with rfl | rfl | rfl | rfl <;> rfl

/-! ### What the rules allow is read -/

theorem readLiteral_of_escapeFree
    (h : Span.EscapeFree (Date.opensWith Date.dayShape cs) cs) :
    readLiteral c cs = readUnescaped c cs (Span.read cs) := by
  have hescaped : ¬ (Span.read cs).isEscaped = true := by
    intro hescaped
    rw [Span.isEscaped, Span.read, h.unescaped] at hescaped
    cases hescaped
  have hends : ¬ (cs.drop (Span.read cs).length).head? = some '%' := h.ends
  simp only [readLiteral]
  rw [if_neg hends, if_neg hescaped]

theorem not_opensWith_dayShape {n : Nat} (h : Number.read? cs = some (n, kind)) :
    Date.opensWith Date.dayShape cs = false := by
  rw [Bool.eq_false_iff]
  intro hday
  rw [Date.read?_of_opensWith_dayShape hday] at h
  cases h

theorem readUnescaped_number {n : Nat} {span : Span} (hconstant : Constant.read? cs = none)
    (h : Number.read? cs = some (n, kind)) :
    readUnescaped c cs span = .ok (verbatim kind (cs.take n)) := by
  simp [readUnescaped, hconstant, Date.read_eq_absent_iff.mpr (not_opensWith_dayShape h), h]

theorem read_number (hnumeral : Number.Numeral raw) (hends : Stops continuesLiteral rest)
    (hcs : c :: cs = raw ++ rest) : read c cs = .ok (verbatim (Number.kind raw) raw) := by
  have hread := Number.read?_append hnumeral hends
  by_cases hsign : ∃ kind, sign? c = some kind
  · obtain ⟨kind, hsign⟩ := hsign
    rw [read_of_sign hsign, readSigned, hcs, hread]
    simp
  · obtain ⟨d, ds, rfl⟩ := List.exists_cons_of_ne_nil hnumeral.ne_nil
    obtain ⟨rfl, -⟩ := List.cons.inj hcs
    have hc : continuesLiteral c = true ∧ c ≠ '-' ∧ c.isAlpha = false := by
      rcases hnumeral.head with rfl | rfl | rfl | hdigit
      · exact absurd ⟨_, rfl⟩ hsign
      · exact absurd ⟨_, rfl⟩ hsign
      · decide
      · exact ⟨continuesLiteral_of_isDigit hdigit, ne_minus_of_isDigit hdigit,
          not_isAlpha_of_isDigit hdigit⟩
    have hconstant : Constant.read? (c :: ds ++ rest) = none := Constant.read?_eq_none hc.2.2
    have hescape : Span.EscapeFree (Date.opensWith Date.dayShape (c :: ds ++ rest))
        (c :: ds ++ rest) := by
      rw [not_opensWith_dayShape hread]
      exact Span.escapeFree_untimed_iff.mpr (hnumeral.exists_literals hends)
    rw [read_of_continuesLiteral hc.1 hc.2.1, hcs, readLiteral_of_escapeFree hescape,
      readUnescaped_number hconstant hread, List.take_left]

theorem read_constant (h : (raw, kind) ∈ Constant.forms) (hcs : c :: cs = raw ++ rest) :
    read c cs = .ok (verbatim kind raw) := by
  obtain ⟨d, word, hraw, hword, hd⟩ := Constant.exists_word_of_mem_forms h
  obtain ⟨rfl, -⟩ : c = d ∧ cs = word ++ ['(', ')'] ++ rest := by
    simpa [hraw] using hcs
  have hcontinues : continuesLiteral c = true :=
    continuesLiteral_of_isLiteral (hword c List.mem_cons_self)
  have hminus : c ≠ '-' := by
    rintro rfl
    cases hd
  have hday : Date.opensWith Date.dayShape (raw ++ rest) = false := by
    rw [Bool.eq_false_iff]
    intro hday
    have hdigit := Date.isDigit_of_opensWith_dayShape (hcs ▸ hday)
    rw [not_isAlpha_of_isDigit hdigit] at hd
    cases hd
  have hescape : Span.EscapeFree (Date.opensWith Date.dayShape (raw ++ rest)) (raw ++ rest) := by
    rw [hday, hraw, List.append_assoc]
    exact Span.escapeFree_untimed_iff.mpr ⟨_, _, rfl, hword, Stops.cons_iff.mpr rfl⟩
  rw [read_of_continuesLiteral hcontinues hminus, hcs, readLiteral_of_escapeFree hescape]
  simp [readUnescaped, Constant.read?_append h]

theorem read_date (hwritten : Date.Written raw) (hends : Stops continuesLiteral rest)
    (hplain : Span.EscapeFree true rest) (hcs : c :: cs = raw ++ rest) :
    read c cs = .ok (verbatim .date raw) := by
  have hday : Date.opensWith Date.dayShape (raw ++ rest) = true := hwritten.opensWith_dayShape
  have hdigit := Date.isDigit_of_opensWith_dayShape (hcs ▸ hday)
  have hescape : Span.EscapeFree (Date.opensWith Date.dayShape (raw ++ rest)) (raw ++ rest) := by
    rw [hday]
    exact (Span.escapeFree_append_iff (Span.piecesOf_written hwritten)).mpr hplain
  have hconstant : Constant.read? (raw ++ rest) = none := by
    rw [← hcs]
    exact Constant.read?_eq_none (not_isAlpha_of_isDigit hdigit)
  have hcomplete : Date.read (raw ++ rest) = .complete :=
    Date.read_eq_complete_iff.mpr ⟨raw, rest, rfl, hwritten, hends⟩
  rw [read_of_continuesLiteral (continuesLiteral_of_isDigit hdigit)
    (ne_minus_of_isDigit hdigit), hcs, readLiteral_of_escapeFree hescape]
  simp [readUnescaped, hconstant, hcomplete, ← hwritten.length]

theorem IsWord.opensWith_dayShape (h : IsWord raw rest) :
    Date.opensWith Date.dayShape (raw ++ rest) = false := by
  rw [Date.opensWith_dayShape_append h.ends.literal]
  exact h.no_date

theorem IsWord.escapeFree (h : IsWord raw rest) :
    Span.EscapeFree (Date.opensWith Date.dayShape (raw ++ rest)) (raw ++ rest) := by
  rw [h.opensWith_dayShape]
  exact Span.escapeFree_untimed_iff.mpr ⟨raw, rest, rfl, h.literal, h.ends⟩

theorem read_word (h : IsWord raw rest) (hcs : c :: cs = raw ++ rest) :
    read c cs = .ok (readWord (Span.ofChars raw) rest) := by
  obtain ⟨d, ds, hraw, hcontinues⟩ := h.exists_cons
  obtain ⟨rfl, -⟩ : c = d ∧ cs = ds ++ rest := by simpa [hraw] using hcs
  have hminus : c ≠ '-' := by
    have := h.head
    simpa [hraw] using this
  have hspan := Span.read_literals h.literal h.ends h.no_date
  have hpieces : (Span.ofChars raw).pieces ≠ [] := by simpa [Span.ofChars] using h.ne_nil
  rw [read_of_continuesLiteral hcontinues hminus, hcs, readLiteral_of_escapeFree h.escapeFree,
    hspan]
  simp [readUnescaped, h.no_constant, h.no_number, hpieces,
    Date.read_eq_absent_iff.mpr h.opensWith_dayShape]

theorem read_escaped {span : Span} {value : String} (hhead : span.text.head? ≠ some '-')
    (hwhole : Span.read (span.text ++ rest) = span) (hends : Stops continuesLiteral rest)
    (hescaped : span.isEscaped = true) (hdecoded : span.decoded? = some value)
    (hcs : c :: cs = span.text ++ rest) :
    read c cs = .ok ⟨textSymbol rest, value, span.length⟩ := by
  obtain ⟨d, ds, htext, hcontinues⟩ := Span.exists_cons_of_isEscaped hwhole hescaped
  obtain ⟨rfl, -⟩ : c = d ∧ cs = ds ++ rest := by simpa [htext] using hcs
  have hminus : c ≠ '-' := by
    simpa [htext] using hhead
  have hpercent : rest.head? ≠ some '%' := by
    intro hhead
    exact absurd (hends '%' hhead) (by decide)
  rw [read_of_continuesLiteral hcontinues hminus, hcs]
  simp only [readLiteral, hwhole, Span.length, List.drop_left]
  rw [if_neg hpercent, if_pos hescaped, readEscaped, hdecoded]
  rfl

/-- What the rules allow is what is read. -/
theorem Reading.read (h : Reading raw rest l) (hcs : c :: cs = raw ++ rest) :
    Lexeme.read c cs = .ok l := by
  cases h with
  | punctuation h =>
      obtain ⟨rfl, rfl⟩ := List.cons.inj hcs
      simp [Lexeme.read, h]
  | comparison spelling longest =>
      rw [read_of_spelling spelling hcs, readComparison, hcs,
        Comparison.read?_append spelling longest]
  | sign h no_number =>
      obtain ⟨rfl, rfl⟩ := List.cons.inj hcs
      rw [read_of_sign h, readSigned, no_number]
      rfl
  | number numeral ends => exact read_number numeral ends hcs
  | constant form => exact read_constant form hcs
  | date written ends plain => exact read_date written ends plain hcs
  | escaped head whole ends escaped decoded =>
      exact read_escaped head whole ends escaped decoded hcs
  | word word => exact read_word word hcs

/-! ### What is read is allowed by the rules -/

theorem reading_readSigned (h : sign? c = some kind) :
    ∃ raw rest, c :: cs = raw ++ rest ∧ Reading raw rest (readSigned kind (c :: cs)) := by
  unfold readSigned
  split
  · rename_i n numeric hread
    obtain ⟨raw, rest, hcs, rfl, numeral, ends, rfl⟩ := Number.numeral_of_read? hread
    rw [hcs, List.take_left]
    exact ⟨raw, rest, rfl, .number numeral ends⟩
  · rename_i hread
    exact ⟨[c], cs, rfl, .sign h hread⟩

theorem head?_ne_of_append {d : Char} (hcs : c :: cs = raw ++ rest) (hc : c ≠ d) :
    raw.head? ≠ some d := by
  intro hraw
  obtain ⟨tail, rfl⟩ := List.head?_eq_some_iff.mp hraw
  exact hc (List.cons.inj hcs).1

theorem reading_readEscaped (hescaped : (Span.read (c :: cs)).isEscaped = true)
    (hends : ((c :: cs).drop (Span.read (c :: cs)).length).head? ≠ some '%') (hc : c ≠ '-')
    (h : readEscaped (Span.read (c :: cs)) ((c :: cs).drop (Span.read (c :: cs)).length) = .ok l) :
    ∃ raw rest, c :: cs = raw ++ rest ∧ Reading raw rest l := by
  unfold readEscaped at h
  split at h
  · rename_i value hdecoded
    have hcs := (Span.text_append_drop (c :: cs)).symm
    have hbehind := Span.piecesOf_behind (Span.piecesOf_text_read (c :: cs))
    have hstops := Span.stops_continuesLiteral (Span.stops_of_piecesOf_eq_nil hbehind) hends
    exact ⟨_, _, hcs, Except.ok.inj h ▸ .escaped (head?_ne_of_append hcs hc)
      (congrArg Span.read hcs.symm) hstops hescaped hdecoded⟩
  · cases h

/-- A literal without escapes that is nothing else is a word. -/
theorem exists_word
    (hescape : Span.EscapeFree (Date.opensWith Date.dayShape (c :: cs)) (c :: cs)) (hc : c ≠ '-')
    (hconstant : Constant.read? (c :: cs) = none)
    (hday : Date.opensWith Date.dayShape (c :: cs) = false)
    (hnumber : Number.read? (c :: cs) = none) (hpieces : (Span.read (c :: cs)).pieces ≠ []) :
    ∃ raw rest, c :: cs = raw ++ rest ∧ Span.read (c :: cs) = Span.ofChars raw ∧
      IsWord raw rest := by
  rw [hday] at hescape
  obtain ⟨raw, rest, hcs, literal, ends⟩ := Span.escapeFree_untimed_iff.mp hescape
  have hdate : Date.opensWith Date.dayShape raw = false := by
    rw [← Date.opensWith_dayShape_append ends.literal, ← hcs]
    exact hday
  have hspan : Span.read (c :: cs) = Span.ofChars raw := by
    rw [hcs, Span.read_literals literal ends hdate]
  have hraw : raw ≠ [] := by
    rintro rfl
    exact hpieces (congrArg Span.pieces hspan)
  exact ⟨raw, rest, hcs, hspan, hraw, head?_ne_of_append hcs hc, literal, ends, hcs ▸ hconstant,
    hdate, hcs ▸ hnumber⟩

theorem reading_readUnescaped
    (hescape : Span.EscapeFree (Date.opensWith Date.dayShape (c :: cs)) (c :: cs)) (hc : c ≠ '-')
    (h : readUnescaped c (c :: cs) (Span.read (c :: cs)) = .ok l) :
    ∃ raw rest, c :: cs = raw ++ rest ∧ Reading raw rest l := by
  unfold readUnescaped at h
  split at h
  · rename_i n kind hread
    obtain ⟨raw, rest, hcs, rfl, form⟩ := Constant.form_of_read? hread
    rw [hcs, List.take_left] at h
    exact ⟨raw, rest, hcs, Except.ok.inj h ▸ .constant form⟩
  · rename_i hconstant
    split at h
    · rename_i hcomplete
      obtain ⟨raw, rest, hcs, written, ends⟩ := Date.read_eq_complete_iff.mp hcomplete
      rw [hcs, ← written.length, List.take_left] at h
      rw [hcs, written.opensWith_dayShape,
        Span.escapeFree_append_iff (Span.piecesOf_written written)] at hescape
      exact ⟨raw, rest, hcs, Except.ok.inj h ▸ .date written ends hescape⟩
    · cases h
    · rename_i habsent
      have hday := Date.read_eq_absent_iff.mp habsent
      split at h
      · rename_i n kind hread
        obtain ⟨raw, rest, hcs, rfl, numeral, ends, rfl⟩ := Number.numeral_of_read? hread
        rw [hcs, List.take_left] at h
        exact ⟨raw, rest, hcs, Except.ok.inj h ▸ .number numeral ends⟩
      · rename_i hnumber
        split at h
        · cases h
        · rename_i hpieces
          obtain ⟨raw, rest, hcs, hspan, hword⟩ :=
            exists_word hescape hc hconstant hday hnumber hpieces
          rw [hspan, hcs, Span.length_ofChars, List.drop_left] at h
          exact ⟨raw, rest, hcs, Except.ok.inj h ▸ .word hword⟩

/-- What is read is allowed by the rules. -/
theorem reading_of_read (h : read c cs = .ok l) :
    ∃ raw rest, c :: cs = raw ++ rest ∧ Reading raw rest l := by
  unfold read at h
  split at h
  · rename_i kind hkind
    exact ⟨[c], cs, rfl, Except.ok.inj h ▸ .punctuation hkind⟩
  · split at h
    · unfold readComparison at h
      split at h
      · rename_i n operator hread
        obtain ⟨raw, rest, hcs, rfl, spelling, longest⟩ := Comparison.read?_eq_some_iff.mp hread
        exact ⟨raw, rest, hcs, Except.ok.inj h ▸ .comparison spelling longest⟩
      · cases h
    · split at h
      · rename_i hkind
        exact Except.ok.inj h ▸ reading_readSigned hkind
      · rename_i hsign
        have hc := (ne_of_sign? hsign).2
        simp only [readLiteral] at h
        split at h
        · cases h
        · rename_i hends
          split at h
          · rename_i hescaped
            exact reading_readEscaped hescaped hends hc h
          · rename_i hescaped
            exact reading_readUnescaped ⟨Bool.eq_false_iff.mpr hescaped, hends⟩ hc h

/-- **What is read is what the rules allow.** -/
theorem read_eq_ok_iff :
    read c cs = .ok l ↔ ∃ raw rest, c :: cs = raw ++ rest ∧ Reading raw rest l := by
  constructor
  · exact reading_of_read
  · rintro ⟨raw, rest, hcs, h⟩
    exact h.read hcs

end Lexeme

end ResourceQuery

/-
Names, and what is read in front of a name and a colon.

A name is read as a type in front of `:` and as an operator in front of `(`, unless it
makes a constant with what stands behind it.

A name and a colon may be put in front of a token, and what stands in front of them is
read as before.  A number could go on into the name (the `1` of `1e5:` would be read
with it), but only from a character that a number can have; and what goes on into the
name and ends there ends in a character of a name, while constants and comparisons do
not.  So it is enough that the text in front ends in no character of a literal, and not
in a sign (`Clear`).
-/
import ResourceQuery.Proofs.Lexeme.Lookahead

namespace ResourceQuery

variable {raw rest gap back back' front name u v : List Char} {c : Char} {l : Lexeme}

/-! ### A name is a word -/

theorem exists_startsName (h : isName raw = true) :
    ∃ c cs, raw = c :: cs ∧ startsName c = true := by
  cases raw with
  | nil => cases h
  | cons c cs =>
      rw [isName, Bool.and_eq_true] at h
      exact ⟨c, cs, rfl, h.1⟩

theorem continuesName_of_isName (h : isName raw = true) : ∀ c ∈ raw, continuesName c = true := by
  obtain ⟨c, cs, rfl, hc⟩ := exists_startsName h
  rw [isName, Bool.and_eq_true, List.all_eq_true] at h
  intro d hd
  rcases List.mem_cons.mp hd with rfl | hd
  · simp only [startsName, Bool.or_eq_true] at hc
    rcases hc with hc | hc
    · exact Comparison.continuesName_of_isAlpha hc
    · simp [continuesName, hc]
  · exact h.2 d hd

theorem isLiteral_of_isName (h : isName raw = true) : ∀ c ∈ raw, isLiteral c = true :=
  fun c hc => isLiteral_of_continuesName (continuesName_of_isName h c hc)

theorem not_isDigit_of_startsName (h : startsName c = true) : c.isDigit = false := by
  rw [Bool.eq_false_iff]
  intro hdigit
  simp only [startsName, Bool.or_eq_true, decide_eq_true_eq] at h
  rcases h with h | rfl
  · rw [Lexeme.not_isAlpha_of_isDigit hdigit] at h
    cases h
  · cases hdigit

theorem Number.read?_eq_none_of_startsName (h : startsName c = true) (cs : List Char) :
    Number.read? (c :: cs) = none := by
  have hne : ∀ d : Char, startsName d = false → c ≠ d := by
    rintro d hd rfl
    rw [h] at hd
    cases hd
  exact Number.read?_eq_none_of_head (hne _ rfl) (hne _ rfl) (hne _ rfl)
    (not_isDigit_of_startsName h)

theorem Constant.no_colon {kind : Kind} (h : (raw, kind) ∈ Constant.forms) : ':' ∉ raw := by
  obtain ⟨c, word, rfl, hword, -⟩ := Constant.exists_word_of_mem_forms h
  intro hmem
  rcases List.mem_append.mp hmem with hmem | hmem
  · cases hword _ hmem
  · simp at hmem

/-- A name and a parenthesis make a constant only with a parenthesis behind them. -/
theorem Constant.read?_eq_none_of_name (hname : isName raw = true) (hrest : rest.head? ≠ some ')') :
    Constant.read? (raw ++ '(' :: rest) = none := by
  rw [Option.eq_none_iff_forall_ne_some]
  rintro ⟨n, kind⟩ hread
  have hstops : Stops isLiteral ('(' :: rest) := Stops.cons_iff.mpr rfl
  obtain ⟨-, after, hafter⟩ := Constant.word_of_read? (isLiteral_of_isName hname) hstops hread
  obtain ⟨-, rfl⟩ := List.cons.inj hafter
  exact hrest rfl

namespace Lexeme

/-- A name that makes no constant is a word. -/
theorem IsWord.of_name (hname : isName raw = true) (hends : Stops continuesLiteral rest)
    (hconstant : Constant.read? (raw ++ rest) = none) : IsWord raw rest := by
  obtain ⟨c, cs, rfl, hc⟩ := exists_startsName hname
  refine ⟨List.cons_ne_nil c cs, ?_, isLiteral_of_isName hname, hends, hconstant, ?_,
    Number.read?_eq_none_of_startsName hc _⟩
  · intro hminus
    obtain rfl := Option.some.inj hminus
    cases hc
  · rw [Bool.eq_false_iff]
    intro hday
    have hdigit := Date.isDigit_of_opensWith_dayShape hday
    rw [not_isDigit_of_startsName hc] at hdigit
    cases hdigit

theorem not_hasWildcard_of_isName (hname : isName raw = true) :
    (Span.ofChars raw).hasWildcard = false := by
  rw [Bool.eq_false_iff]
  intro hwildcard
  rcases (Span.hasWildcard_ofChars_iff raw).mp hwildcard with hmem | hmem <;>
    cases continuesName_of_isName hname _ hmem

/-- In front of a parenthesis a name that makes no constant is an operator. -/
theorem Reading.operator (hname : isName raw = true)
    (hconstant : Constant.read? (raw ++ '(' :: rest) = none) :
    Reading raw ('(' :: rest) (verbatim .operator raw) := by
  have hword : readWord (Span.ofChars raw) ('(' :: rest) = verbatim .operator raw := by
    simp [readWord, not_hasWildcard_of_isName hname, hname]
  exact hword ▸ .word (.of_name hname (Stops.cons_iff.mpr rfl) hconstant)

/-- In front of a colon a name is a type. -/
theorem Reading.typeName (hname : isName raw = true) :
    Reading raw (':' :: rest) (verbatim .typeName raw) := by
  have hword : readWord (Span.ofChars raw) (':' :: rest) = verbatim .typeName raw := by
    simp [readWord, not_hasWildcard_of_isName hname, hname]
  refine hword ▸ .word (.of_name hname (Stops.cons_iff.mpr rfl) ?_)
  cases hread : Constant.read? (raw ++ ':' :: rest) with
  | none => rfl
  | some found =>
      -- the constant would end in front of the colon, and so in a character of the name
      obtain ⟨form, after, htext, -, hform⟩ := Constant.form_of_read? hread
      have hcolon : ∀ e ∈ (':' :: rest).head?, e ∉ form := by
        intro e he
        obtain rfl := Option.some.inj he
        exact Constant.no_colon hform
      obtain ⟨y, rfl, -⟩ := exists_front hcolon htext
      obtain ⟨w, rfl, -⟩ := Constant.exists_last_of_mem_forms hform
      cases continuesName_of_isName hname ')' (by simp)

end Lexeme

/-! ### In front of a name and a colon -/

/-- The text ends in no character of a literal or a number, and not in a `!`. -/
def Clear (front : List Char) : Prop :=
  ∀ d ∈ front.getLast?, isLiteral d = false ∧ d ≠ '+' ∧ d ≠ '!'

theorem Clear.append_left_iff (hgap : gap ≠ []) (raw : List Char) :
    Clear (raw ++ gap) ↔ Clear gap := by
  rw [Clear, Clear, List.getLast?_append_of_ne_nil raw hgap]

theorem Clear.not_numeral (h : Clear front) (hfront : front ≠ []) (more : List Char) :
    ¬ Number.Numeral (front ++ more) := by
  intro numeral
  have hmem : front.getLast hfront ∈ front ++ more :=
    List.mem_append_left more (List.getLast_mem hfront)
  obtain ⟨hliteral, hplus, -⟩ := h _ (List.getLast?_eq_some_getLast hfront)
  rcases numeral.isLiteral_or _ hmem with hd | hd
  · rw [hliteral] at hd
    cases hd
  · exact hplus hd

/-- What has no colon in it and does not end in a character of a name ends in front of a
name and a colon. -/
theorem exists_front_of_name (hname : isName name = true) (hcolon : ':' ∉ u)
    (hlast : ∀ d ∈ u.getLast?, continuesName d = false)
    (h : front ++ (name ++ ':' :: back) = u ++ v) : ∃ y, front = u ++ y := by
  have hhead : ∀ c ∈ (':' :: back).head?, c ∉ u := by
    intro c hc
    obtain rfl := Option.some.inj hc
    exact hcolon
  obtain ⟨y, hy, -⟩ := exists_front hhead ((List.append_assoc ..).trans h)
  rcases List.append_eq_append_iff.mp hy with ⟨z, rfl, hz⟩ | ⟨z, rfl, -⟩
  · by_cases hnil : z = []
    · exact ⟨[], by simp [hnil]⟩
    · have hd : z.getLast hnil ∈ name := hz ▸ List.mem_append_left y (List.getLast_mem hnil)
      have hu : (front ++ z).getLast? = some (z.getLast hnil) := by
        rw [List.getLast?_append_of_ne_nil front hnil, List.getLast?_eq_some_getLast hnil]
      have hnone := hlast _ hu
      rw [continuesName_of_isName hname _ hd] at hnone
      cases hnone
  · exact ⟨z, rfl⟩

theorem Comparison.Spelling.no_colon {operator : String} (h : Comparison.Spelling raw operator) :
    ':' ∉ raw := by
  cases h with
  | named head tail =>
      intro hmem
      simp only [List.mem_cons, List.mem_append, List.not_mem_nil, or_false] at hmem
      rcases hmem with hmem | (rfl | hmem) | hmem
      · cases hmem
      · cases head
      · cases tail _ hmem
      · cases hmem
  | _ => decide

/-- A name and a colon show nothing new in front of them. -/
theorem Unnoticed.of_name (hname : isName name = true) (hraw : raw ≠ [])
    (hclear : Clear (raw ++ gap)) :
    Unnoticed raw (gap ++ back) (gap ++ (name ++ ':' :: back')) where
  number := by
    intro hnone
    have hfront : raw ++ gap ≠ [] := List.append_ne_nil_of_left_ne_nil hraw gap
    rw [← List.append_assoc] at hnone ⊢
    refine Number.read?_eq_none_of_front ?_ ?_ hnone
    · intro u v htext numeral _
      rcases List.append_eq_append_iff.mp htext with ⟨y, rfl, -⟩ | ⟨y, hy, -⟩
      · exact absurd numeral (hclear.not_numeral hfront y)
      · exact ⟨y, hy⟩
    · intro numeral
      rw [← List.append_nil (raw ++ gap)] at numeral
      exact absurd numeral (hclear.not_numeral hfront [])
  constant := by
    intro hnone
    rw [← List.append_assoc] at hnone ⊢
    refine Constant.read?_eq_none_of_front ?_ hnone
    intro u v kind htext form
    have hcolon := Constant.no_colon form
    obtain ⟨w, rfl, -⟩ := Constant.exists_last_of_mem_forms form
    exact exists_front_of_name hname hcolon (by simp [continuesName]) htext
  comparison := by
    intro _ hlongest
    refine hlongest.of_front ?_
    rintro more v htext ⟨operator, spelling⟩
    refine exists_front_of_name hname (fun hmem => ?_) ?_ htext
    · exact spelling.no_colon (List.mem_append_right raw hmem)
    · intro d hd
      obtain ⟨w, e, hlast, he, -⟩ := spelling.exists_last
      have hmore : more ≠ [] := by
        rintro rfl
        cases hd
      have hde : (raw ++ more).getLast? = some d := by
        rwa [List.getLast?_append_of_ne_nil raw hmore]
      obtain rfl : e = d := by simpa [hlast] using hde
      rw [Bool.eq_false_iff]
      intro hcontinues
      rw [Lexeme.opens_of_continuesLiteral (continuesLiteral_of_continuesName hcontinues)] at he
      cases he

/-- **A lexeme is read the same when a name and a colon are put further on**, where what
stands in front of them ends in no character of a literal or a number. -/
theorem Lexeme.Reading.of_name (hname : isName name = true) (hclear : Clear (raw ++ gap))
    (hcolon : gap.head? = some ':' → l.symbol.kind = .typeName)
    (h : Lexeme.Reading raw (gap ++ back) l) :
    Lexeme.Reading raw (gap ++ (name ++ ':' :: back')) l := by
  obtain ⟨c, cs, hraw, -⟩ := h.exists_cons
  refine h.of_unnoticed (.of_name hname (hraw ▸ List.cons_ne_nil c cs) hclear) fun hliteral => ?_
  have hgap : gap ≠ [] := by
    rintro rfl
    obtain ⟨d, hd, hliteral⟩ := hliteral
    rw [(hclear d (by rwa [List.append_nil])).1] at hliteral
    cases hliteral
  have hbang : gap.getLast? ≠ some '!' := fun hlast =>
    ((Clear.append_left_iff hgap raw).mp hclear _ hlast).2.2 rfl
  exact .of_gap hgap (Comparison.follows_gap hgap (fun h => absurd h hbang) fun h => absurd h hbang)
    hcolon

/-- What ends in a character that ends no literal, no comparison and no constant is that
character alone. -/
theorem Lexeme.Reading.of_last {d : Char} (hlast : raw.getLast? = some d)
    (hliteral : isLiteral d = false) (hopens : Comparison.opens d = false) (hclose : d ≠ ')')
    (h : Lexeme.Reading raw rest l) :
    ∃ kind, l.symbol = .plain kind ∧
      (Lexeme.punctuation? d = some kind ∨ Lexeme.sign? d = some kind) := by
  have hnot : ¬ EndsInLiteral raw := by
    rintro ⟨c, hc, hcliteral⟩
    obtain rfl := Option.some.inj (hlast.symm.trans hc)
    rw [hliteral] at hcliteral
    cases hcliteral
  cases h with
  | @punctuation c kind _ h =>
      obtain rfl : c = d := by simpa using hlast
      exact ⟨kind, rfl, .inl h⟩
  | @sign c kind _ h =>
      obtain rfl : c = d := by simpa using hlast
      exact ⟨kind, rfl, .inr h⟩
  | comparison spelling =>
      obtain ⟨w, c, rfl, hc, -⟩ := spelling.exists_last
      obtain rfl : c = d := by simpa using hlast
      rw [hopens] at hc
      cases hc
  | number numeral =>
      obtain ⟨c, hc, hdigit⟩ := numeral.getLast?
      exact absurd ⟨c, hc, isLiteral_of_isDigit hdigit⟩ hnot
  | constant form =>
      obtain ⟨w, rfl, -⟩ := Constant.exists_last_of_mem_forms form
      exact absurd (by simpa using hlast) hclose.symm
  | date written => exact absurd written.endsInLiteral hnot
  | escaped _ whole ends escaped =>
      exact absurd (Span.endsInLiteral_of_read whole escaped ends) hnot
  | word word => exact absurd word.endsInLiteral hnot

end ResourceQuery

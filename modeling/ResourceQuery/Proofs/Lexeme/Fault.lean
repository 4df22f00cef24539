/-
What is wrong where no lexeme can be read.

Reading fails in four ways, and which recogniser finds out depends on all those before it.
`Faulty` says outright what is wrong at the start of a text and what is cited for it: one
rule for each fault, stated by what is written there, with the kind and the text of the
error.  `faulty_iff_read` is that the rules and the recognisers agree, so at most one rule
fits a text, and where one does no lexeme is read.
-/
import ResourceQuery.Proofs.Lexeme.Reading
import ResourceQuery.Proofs.Literal.Extent

namespace ResourceQuery.Lexeme

/-- No token starts with the character in front of `cs`. -/
def StartsNothing (c : Char) (cs : List Char) : Prop :=
  c = '!' ∧ cs.head? ≠ some '=' ∨
    isBlank c = false ∧ isLiteral c = false ∧
      c ∉ ['(', ')', ',', ':', '&', '|', '=', '!', '<', '>', '+', '-', '%']

/-- What is wrong at the start of a text, and the kind and the text that are cited for it. -/
inductive Faulty : List Char → Fault → Kind → String → Prop
  | unknownCharacter {c : Char} {cs : List Char} (starts_nothing : StartsNothing c cs) :
      Faulty (c :: cs) (.unknownCharacter c) .unknown (String.singleton c)
  | malformedEscape {raw digits behind : List Char} (written : Span.Written raw)
      (hex : ∀ c ∈ digits, isHexDigit c = true) (short : digits.length ≤ 1)
      (stops : Stops isHexDigit behind) :
      Faulty (raw ++ '%' :: (digits ++ behind))
        (.malformedEscape (String.ofList (raw ++ '%' :: digits))) .string
        (String.ofList (raw ++ '%' :: digits))
  | undecodable {raw rest : List Char} {bs : List UInt8} (complete : Span.Complete raw rest)
      (escape : '%' ∈ raw) (encodes : Encodes raw bs)
      (invalid : ∀ value : String, value.toByteArray ≠ bs.toByteArray) :
      Faulty (raw ++ rest) (.undecodable (String.ofList raw)) .string (String.ofList raw)
  | incompleteDate {raw rest opening : List Char} (complete : Span.Complete raw rest)
      (plain : '%' ∉ raw) (not_whole : ¬ Date.Whole (raw ++ rest))
      (longest : Date.LongestOpening opening (raw ++ rest)) :
      Faulty (raw ++ rest) (.incompleteDate (String.ofList opening)) .date
        (String.ofList opening)

/-- None of the recognisers that go by the first character alone takes the character. -/
structure Untaken (c : Char) : Prop where
  not_blank : isBlank c = false
  no_punctuation : punctuation? c = none
  no_comparison : Comparison.opens c = false
  no_sign : sign? c = none

variable {raw rest cs digits behind : List Char} {c : Char} {fault : Fault} {kind : Kind}
variable {value : String}

theorem Untaken.read_eq (h : Untaken c) (cs : List Char) : read c cs = readLiteral c (c :: cs) := by
  simp only [read, h.no_punctuation, h.no_comparison, h.no_sign, Bool.false_eq_true, if_false]

theorem Untaken.head?_ne (h : Untaken c) (cs : List Char) : (c :: cs).head? ≠ some '-' := by
  simpa using (ne_of_sign? h.no_sign).2

/-! ### What the recognisers find wrong is wrong

A fault that a recogniser comes upon is one only because the recognisers before it have found
nothing, so each lemma takes from them what its rule asks for: that the span is whole, that no
escape is in it, that no token starts with the character.
-/

theorem faulty_of_readComparison (hopens : Comparison.opens c = true)
    (h : readComparison c (c :: cs) = .error fault) :
    Faulty (c :: cs) fault fault.kind fault.value := by
  unfold readComparison at h
  split at h
  · cases h
  · rename_i hnone
    have hbang := (Comparison.read?_eq_none_iff hopens).mp hnone
    exact Except.error.inj h ▸ .unknownCharacter (.inl hbang)

/-- What is cited of a text that runs into a `%` that opens no escape. -/
theorem malformedText_eq {span : Span} (h : cs.drop span.length = '%' :: (digits ++ behind))
    (hdigits : ∀ c ∈ digits, isHexDigit c = true) (hbehind : Stops isHexDigit behind) :
    malformedText span cs = span.text ++ '%' :: digits := by
  rw [malformedText, ← List.drop_drop, h, List.drop_one, List.tail_cons,
    takeWhile_append_stops hdigits hbehind]

theorem faulty_of_malformed (hhead : cs.head? ≠ some '-')
    (h : (cs.drop (Span.read cs).length).head? = some '%') :
    Faulty cs (.malformedEscape (String.ofList (malformedText (Span.read cs) cs))) .string
      (String.ofList (malformedText (Span.read cs) cs)) := by
  obtain ⟨tail, htail⟩ := List.head?_eq_some_iff.mp h
  obtain ⟨digits, behind, rfl, hdigits, hbehind⟩ := exists_run isHexDigit tail
  have hcs : (Span.read cs).text ++ '%' :: (digits ++ behind) = cs := by
    rw [← htail, Span.text_append_drop]
  have hnil := Span.piecesOf_behind (Span.piecesOf_text_read cs)
  rw [htail, Span.piecesOf_percent_eq_nil_iff hdigits hbehind] at hnil
  have hfaulty := Faulty.malformedEscape (Span.written_text_read hhead) hdigits hnil hbehind
  rwa [hcs, ← malformedText_eq htail hdigits hbehind] at hfaulty

theorem faulty_of_readEscaped (hhead : cs.head? ≠ some '-')
    (hends : (cs.drop (Span.read cs).length).head? ≠ some '%')
    (hescaped : (Span.read cs).isEscaped = true)
    (h : readEscaped (Span.read cs) rest = .error fault) :
    Faulty cs fault fault.kind fault.value := by
  unfold readEscaped at h
  split at h
  · cases h
  · rename_i hnone
    obtain rfl := Except.error.inj h
    have hinvalid : ∀ value : String, value.toByteArray ≠ (Span.read cs).bytes.toByteArray := by
      intro value hvalue
      rw [Span.decoded?, fromUTF8?_eq_some_iff.mpr hvalue] at hnone
      cases hnone
    have hfaulty := Faulty.undecodable (Span.complete_text_read hhead hends)
      (Span.mem_of_isEscaped hescaped) (Span.encodes_text_read cs) hinvalid
    rwa [Span.text_append_drop] at hfaulty

theorem faulty_of_incomplete {n : Nat} (hhead : cs.head? ≠ some '-')
    (hends : (cs.drop (Span.read cs).length).head? ≠ some '%')
    (hescaped : ¬ (Span.read cs).isEscaped = true) (h : Date.read cs = .incomplete n) :
    Faulty cs (.incompleteDate (String.ofList (cs.take n))) .date
      (String.ofList (cs.take n)) := by
  obtain ⟨hnot, opening, hopening, rfl⟩ := Date.read_eq_incomplete_iff.mp h
  have hplain : '%' ∉ (Span.read cs).text := fun hmem =>
    hescaped (Span.isEscaped_of_mem (Span.piecesOf_text_read cs) hmem)
  have htext := Span.text_append_drop cs
  have hfaulty := Faulty.incompleteDate (Span.complete_text_read hhead hends) hplain
    (htext.symm ▸ hnot) (htext.symm ▸ hopening)
  rwa [htext, List.prefix_iff_eq_take.mp hopening.isPrefix] at hfaulty

theorem Untaken.startsNothing (h : Untaken c)
    (hends : ((c :: cs).drop (Span.read (c :: cs)).length).head? ≠ some '%')
    (hpieces : (Span.read (c :: cs)).pieces = []) : StartsNothing c cs := by
  have hliteral : isLiteral c = false := by
    cases hc : isLiteral c with
    | false => rfl
    | true =>
        have hcons : (Span.read (c :: cs)).pieces = .raw c :: _ := Span.piecesOf_literal hc
        rw [hpieces] at hcons
        cases hcons
  have hpercent : c ≠ '%' := by
    rintro rfl
    simp [Span.length, Span.text, hpieces] at hends
  -- any of the other characters has been taken by a recogniser before
  refine .inr ⟨h.not_blank, hliteral, fun hmem => ?_⟩
  simp only [List.mem_cons, List.not_mem_nil, or_false] at hmem
  rcases hmem with rfl | rfl | rfl | rfl | rfl | rfl | rfl | rfl | rfl | rfl | rfl | rfl | rfl
  all_goals first
    | exact absurd rfl hpercent
    | exact absurd h.no_punctuation (by decide)
    | exact absurd h.no_comparison (by decide)
    | exact absurd h.no_sign (by decide)

theorem faulty_of_readUnescaped (huntaken : Untaken c)
    (hends : ((c :: cs).drop (Span.read (c :: cs)).length).head? ≠ some '%')
    (hescaped : ¬ (Span.read (c :: cs)).isEscaped = true)
    (h : readUnescaped c (c :: cs) (Span.read (c :: cs)) = .error fault) :
    Faulty (c :: cs) fault fault.kind fault.value := by
  unfold readUnescaped at h
  split at h
  · cases h
  · split at h
    · cases h
    · rename_i n hincomplete
      exact Except.error.inj h ▸
        faulty_of_incomplete (huntaken.head?_ne cs) hends hescaped hincomplete
    · split at h
      · cases h
      · split at h
        · rename_i hpieces
          exact Except.error.inj h ▸ .unknownCharacter (huntaken.startsNothing hends hpieces)
        · cases h

theorem faulty_of_readLiteral (huntaken : Untaken c)
    (h : readLiteral c (c :: cs) = .error fault) :
    Faulty (c :: cs) fault fault.kind fault.value := by
  have hhead := huntaken.head?_ne cs
  simp only [readLiteral] at h
  split at h
  · rename_i hpercent
    exact Except.error.inj h ▸ faulty_of_malformed hhead hpercent
  · rename_i hends
    split at h
    · rename_i hescaped
      exact faulty_of_readEscaped hhead hends hescaped h
    · rename_i hescaped
      exact faulty_of_readUnescaped huntaken hends hescaped h

/-- What is not read is wrong. -/
theorem faulty_of_read (hblank : isBlank c = false) (h : read c cs = .error fault) :
    Faulty (c :: cs) fault fault.kind fault.value := by
  unfold read at h
  split at h
  · cases h
  · rename_i hpunctuation
    split at h
    · rename_i hopens
      exact faulty_of_readComparison hopens h
    · rename_i hopens
      split at h
      · cases h
      · rename_i hsign
        exact faulty_of_readLiteral
          ⟨hblank, hpunctuation, Bool.eq_false_iff.mpr hopens, hsign⟩ h

/-! ### What is wrong is not read

The other way round a rule has to keep every recogniser in front of its own from reading
anything.  What a span starts with does that for all but the last of them, and a date that
opens with a digit is taken for no constant.
-/

/-- Where no literal starts nothing is read. -/
theorem readUnescaped_of_not_literal {span : Span} (hliteral : isLiteral c = false)
    (hplus : c ≠ '+') (hpieces : span.pieces = []) :
    readUnescaped c (c :: cs) span = .error (.unknownCharacter c) := by
  have hconstant : Constant.read? (c :: cs) = none := by
    refine Constant.read?_eq_none ?_
    cases halpha : c.isAlpha with
    | false => rfl
    | true => simp [isLiteral, Char.isAlphanum, halpha] at hliteral
  have hdigit : c.isDigit = false := by
    cases hdigit : c.isDigit with
    | false => rfl
    | true =>
        rw [isLiteral_of_isDigit hdigit] at hliteral
        cases hliteral
  have hdate : Date.read (c :: cs) = .absent := by
    rw [Date.read_eq_absent_iff, Bool.eq_false_iff]
    intro hday
    rw [Date.isDigit_of_opensWith_dayShape hday] at hdigit
    cases hdigit
  have hne : ∀ d : Char, isLiteral d = true → c ≠ d := by
    rintro d hd rfl
    rw [hd] at hliteral
    cases hliteral
  have hnumber : Number.read? (c :: cs) = none :=
    Number.read?_eq_none_of_head hplus (hne _ rfl) (hne _ rfl) hdigit
  simp only [readUnescaped, hconstant, hdate, hnumber, hpieces, if_true]

theorem untaken_of_not_mem (hblank : isBlank c = false)
    (h : c ∉ ['(', ')', ',', ':', '&', '|', '=', '!', '<', '>', '+', '-', '%']) : Untaken c := by
  simp only [List.mem_cons, List.not_mem_nil, or_false, not_or] at h
  refine ⟨hblank, ?_, by simp [Comparison.opens, h], ?_⟩
  · unfold punctuation?
    split <;> simp_all
  · unfold sign?
    split <;> simp_all

theorem read_of_startsNothing (h : StartsNothing c cs) :
    read c cs = .error (.unknownCharacter c) := by
  rcases h with ⟨rfl, hequal⟩ | ⟨hblank, hliteral, hother⟩
  · have hopens : Comparison.opens '!' = true := rfl
    have hnone := (Comparison.read?_eq_none_iff hopens).mpr ⟨rfl, hequal⟩
    show readComparison '!' ('!' :: cs) = _
    rw [readComparison, hnone]
  · have huntaken := untaken_of_not_mem hblank hother
    simp only [List.mem_cons, List.not_mem_nil, or_false, not_or] at hother
    have hends : Stops continuesLiteral (c :: cs) :=
      Stops.cons_iff.mpr (by simp [continuesLiteral, hliteral, hother])
    have hpieces : (Span.read (c :: cs)).pieces = [] :=
      Span.piecesOf_eq_nil hends (by simp [hother])
    rw [huntaken.read_eq,
      readLiteral_of_escapeFree (Span.escapeFree_of_piecesOf_eq_nil hends hpieces),
      readUnescaped_of_not_literal hliteral (by simp [hother]) hpieces]

theorem read_of_malformed (written : Span.Written raw)
    (hex : ∀ c ∈ digits, isHexDigit c = true) (short : digits.length ≤ 1)
    (stops : Stops isHexDigit behind) (hcs : c :: cs = raw ++ '%' :: (digits ++ behind)) :
    read c cs = .error (.malformedEscape (String.ofList (raw ++ '%' :: digits))) := by
  have hhead : continuesLiteral c = true ∧ c ≠ '-' := by
    cases raw with
    | nil =>
        obtain ⟨rfl, -⟩ := List.cons.inj hcs
        decide
    | cons d raw =>
        obtain ⟨rfl, -⟩ := List.cons.inj hcs
        exact written.head_cons
  have htext : (Span.read (raw ++ '%' :: (digits ++ behind))).text = raw := by
    rw [written.text_read, (Span.piecesOf_percent_eq_nil_iff hex stops).mpr short,
      List.flatMap_nil, List.append_nil]
  have hdrop := Span.drop_length_read htext
  rw [read_of_continuesLiteral hhead.1 hhead.2, hcs]
  simp only [readLiteral, malformedText_eq hdrop hex stops, htext]
  rw [if_pos (by rw [hdrop]; rfl)]

/-- A whole span is read by whether anything in it is escaped. -/
theorem readLiteral_of_complete (complete : Span.Complete raw rest)
    (hhead : (raw ++ rest).head? ≠ some '-') :
    readLiteral c (raw ++ rest) =
      if '%' ∈ raw then readEscaped (Span.read (raw ++ rest)) rest
      else readUnescaped c (raw ++ rest) (Span.read (raw ++ rest)) := by
  have htext := (Span.text_read_eq_iff hhead).mpr ⟨complete.written, complete.longest⟩
  have hescaped : (Span.read (raw ++ rest)).isEscaped = true ↔ '%' ∈ raw := by
    constructor
    · intro hescaped
      exact htext ▸ Span.mem_of_isEscaped hescaped
    · intro hmem
      have hmem' : '%' ∈ (Span.read (raw ++ rest)).text := by rwa [htext]
      exact Span.isEscaped_of_mem (Span.piecesOf_text_read _) hmem'
  simp only [readLiteral, Span.drop_length_read htext, hescaped]
  exact if_neg complete.ends

theorem read_of_undecodable {bs : List UInt8} (complete : Span.Complete raw rest)
    (escape : '%' ∈ raw) (encodes : Encodes raw bs)
    (invalid : ∀ value : String, value.toByteArray ≠ bs.toByteArray)
    (hcs : c :: cs = raw ++ rest) : read c cs = .error (.undecodable (String.ofList raw)) := by
  obtain ⟨d, ds, rfl⟩ := List.exists_cons_of_ne_nil (List.ne_nil_of_mem escape)
  obtain ⟨rfl, -⟩ := List.cons.inj hcs
  obtain ⟨hcontinues, hminus⟩ := complete.written.head_cons
  have hhead : (c :: ds ++ rest).head? ≠ some '-' := by simpa using hminus
  have htext := (Span.text_read_eq_iff hhead).mpr ⟨complete.written, complete.longest⟩
  have hbytes : (Span.read (c :: ds ++ rest)).bytes = bs :=
    (htext ▸ Span.encodes_text_read (c :: ds ++ rest)).unique encodes
  have hdecoded : (Span.read (c :: ds ++ rest)).decoded? = none := by
    rw [Option.eq_none_iff_forall_ne_some]
    intro value hvalue
    rw [Span.decoded?, hbytes, fromUTF8?_eq_some_iff] at hvalue
    exact invalid value hvalue
  rw [read_of_continuesLiteral hcontinues hminus, hcs, readLiteral_of_complete complete hhead,
    if_pos escape, readEscaped, hdecoded, htext]

/-- A literal without escapes is no date where the date it opens like breaks off. -/
theorem readUnescaped_of_incomplete {opening : List Char} {span : Span}
    (not_whole : ¬ Date.Whole (c :: cs)) (longest : Date.LongestOpening opening (c :: cs)) :
    readUnescaped c (c :: cs) span = .error (.incompleteDate (String.ofList opening)) := by
  have hincomplete := Date.read_eq_incomplete_iff.mpr ⟨not_whole, opening, longest, rfl⟩
  have hconstant : Constant.read? (c :: cs) = none :=
    Constant.read?_eq_none (not_isAlpha_of_isDigit longest.isDigit)
  simp only [readUnescaped, hconstant, hincomplete,
    ← List.prefix_iff_eq_take.mp longest.isPrefix]

theorem read_of_incomplete {opening : List Char} (complete : Span.Complete raw rest)
    (plain : '%' ∉ raw) (not_whole : ¬ Date.Whole (raw ++ rest))
    (longest : Date.LongestOpening opening (raw ++ rest)) (hcs : c :: cs = raw ++ rest) :
    read c cs = .error (.incompleteDate (String.ofList opening)) := by
  rw [← hcs] at not_whole longest
  have hdigit := longest.isDigit
  have hminus := ne_minus_of_isDigit hdigit
  have hhead : (raw ++ rest).head? ≠ some '-' := by
    rw [← hcs]
    simpa using hminus
  rw [read_of_continuesLiteral (continuesLiteral_of_isDigit hdigit) hminus, hcs,
    readLiteral_of_complete complete hhead, if_neg plain, ← hcs,
    readUnescaped_of_incomplete not_whole longest]

/-- What is wrong is not read. -/
theorem Faulty.read {text : List Char} (h : Faulty text fault kind value) (hcs : c :: cs = text) :
    read c cs = .error fault := by
  cases h with
  | unknownCharacter starts_nothing =>
      obtain ⟨rfl, rfl⟩ := List.cons.inj hcs
      exact read_of_startsNothing starts_nothing
  | malformedEscape written hex short stops => exact read_of_malformed written hex short stops hcs
  | undecodable complete escape encodes invalid =>
      exact read_of_undecodable complete escape encodes invalid hcs
  | incompleteDate complete plain not_whole longest =>
      exact read_of_incomplete complete plain not_whole longest hcs

theorem Faulty.cites {text : List Char} (h : Faulty text fault kind value) :
    kind = fault.kind ∧ value = fault.value := by
  cases h <;> exact ⟨rfl, rfl⟩

/-- **What is not read is what the rules find wrong**, for the reason they give, and the error
cites it as they do. -/
theorem faulty_iff_read (hblank : isBlank c = false) :
    Faulty (c :: cs) fault kind value ↔
      Lexeme.read c cs = .error fault ∧ kind = fault.kind ∧ value = fault.value := by
  constructor
  · exact fun h => ⟨h.read rfl, h.cites⟩
  · rintro ⟨hread, rfl, rfl⟩
    exact faulty_of_read hblank hread

end ResourceQuery.Lexeme

/-
How far a lexeme sees.

A lexeme is read by what stands behind it as well as by itself, so a change further on
in the query could in principle change it.  What the rules ask of the text behind a
lexeme comes to two things: that no number, constant or comparison is found which is not
there yet (`Unnoticed`), and, for a literal, how it ends (`EndsAlike`).  Where both are
as before, the lexeme is read as before (`Reading.of_unnoticed`), and every change of a
query's text is judged by these two.

`Unseen` says of a change behind a place that it brings up nothing of the first kind
wherever the lexeme starts (`Reading.of_unseen`).  The first change of this kind is that
a literal gives way to a text with an escape in it.  What would reach into that text
would end inside it, in front of a character that goes on with a literal; but no number
ends there, and constants and comparisons end in characters that are not literal at all.

The plainest change is that more text is put at the end, behind a delimiter
(`Reading.append_closed`).  A constant is all that could reach over it, where a `(` is last
and a `)` is put behind it.
-/
import Mathlib.Data.List.Basic
import ResourceQuery.Proofs.Lexeme.Delimiter
import ResourceQuery.Proofs.Lexeme.Promise

namespace ResourceQuery

variable {front gap back back' e rest rest' tail raw u v : List Char} {c : Char} {l : Lexeme}

/-- Another text behind `raw` in front of which nothing is found at `raw` that was not
found there before. -/
structure Unnoticed (raw rest rest' : List Char) : Prop where
  number : Number.read? (raw ++ rest) = none → Number.read? (raw ++ rest') = none
  constant : Constant.read? (raw ++ rest) = none → Constant.read? (raw ++ rest') = none
  comparison : Comparison.Spelled raw → Comparison.Longest raw rest →
    Comparison.Longest raw rest'

/-- No number, constant or comparison that starts in front of the text reaches into it. -/
structure Hidden (back : List Char) : Prop where
  number : ∀ {front u v}, front ++ back = u ++ v → Number.Numeral u →
    Stops continuesLiteral v → ∃ y, front = u ++ y
  constant : ∀ {front u v kind}, front ++ back = u ++ v → (u, kind) ∈ Constant.forms →
    ∃ y, front = u ++ y
  comparison : ∀ {front u v}, front ++ back = u ++ v → Comparison.Spelled u →
    ∃ y, front = u ++ y

/-- A change of the text behind a place that brings up nothing new in front of it. -/
structure Unseen (front back back' : List Char) : Prop where
  hidden : Hidden back'
  number : Number.Numeral front → Stops continuesLiteral back' → Stops continuesLiteral back
  comparison : front.getLast? = some '!' → back.head? ≠ some '='

/-! ### What is not found is not found behind the change either -/

theorem head?_append (hgap : gap ≠ []) : (gap ++ u).head? = (gap ++ v).head? := by
  obtain ⟨d, gap, rfl⟩ := List.exists_cons_of_ne_nil hgap
  rfl

theorem Stops.replace {p : Char → Bool} (hgap : gap ≠ []) (h : Stops p (gap ++ u)) :
    Stops p (gap ++ v) := by
  intro c hc
  exact h c (by rwa [head?_append hgap])

/-- A number that is found only behind the change reaches into it. -/
theorem Number.read?_eq_none_of_front
    (hfront : ∀ {u v}, front ++ back' = u ++ v → Numeral u → Stops continuesLiteral v →
      ∃ y, front = u ++ y)
    (hstops : Numeral front → Stops continuesLiteral back' → Stops continuesLiteral back)
    (h : Number.read? (front ++ back) = none) : Number.read? (front ++ back') = none := by
  cases hread : Number.read? (front ++ back') with
  | none => rfl
  | some found =>
      obtain ⟨raw, after, hcs, -, numeral, hends, -⟩ := Number.numeral_of_read? hread
      obtain ⟨y, rfl⟩ := hfront hcs numeral hends
      rw [List.append_assoc] at hcs h
      obtain rfl := List.append_cancel_left hcs
      have hstops : Stops continuesLiteral (y ++ back) := by
        cases y with
        | nil => exact hstops (by rwa [List.append_nil]) hends
        | cons c y => exact hends.replace (List.cons_ne_nil c y)
      rw [Number.read?_append numeral hstops] at h
      cases h

/-- A constant that is found only behind the change reaches into it. -/
theorem Constant.read?_eq_none_of_front
    (hfront : ∀ {u v kind}, front ++ back' = u ++ v → (u, kind) ∈ forms → ∃ y, front = u ++ y)
    (h : Constant.read? (front ++ back) = none) : Constant.read? (front ++ back') = none := by
  cases hread : Constant.read? (front ++ back') with
  | none => rfl
  | some found =>
      obtain ⟨raw, after, hcs, -, form⟩ := Constant.form_of_read? hread
      obtain ⟨y, rfl⟩ := hfront hcs form
      rw [List.append_assoc, Constant.read?_append form] at h
      cases h

/-- A longer spelling that is found only behind the change reaches into it. -/
theorem Comparison.Longest.of_front
    (hfront : ∀ {more v}, gap ++ back' = more ++ v → Comparison.Spelled (raw ++ more) →
      ∃ y, gap = more ++ y)
    (h : Comparison.Longest raw (gap ++ back)) : Comparison.Longest raw (gap ++ back') := by
  intro more after hrest hspelled
  obtain ⟨y, rfl⟩ := hfront hrest hspelled
  exact h more (y ++ back) (List.append_assoc _ _ _) hspelled

theorem Comparison.Longest.of_hidden (hhidden : Hidden back')
    (h : Comparison.Longest raw (gap ++ back)) : Comparison.Longest raw (gap ++ back') := by
  refine h.of_front ?_
  intro more v hrest hspelled
  have htext : (raw ++ gap) ++ back' = (raw ++ more) ++ v := by
    rw [List.append_assoc, hrest, List.append_assoc]
  obtain ⟨y, hy⟩ := hhidden.comparison htext hspelled
  rw [List.append_assoc] at hy
  exact ⟨y, List.append_cancel_left hy⟩

theorem Hidden.head?_ne_equal (h : Hidden back) : back.head? ≠ some '=' := by
  intro hback
  obtain ⟨v, rfl⟩ := List.head?_eq_some_iff.mp hback
  have htext : [] ++ '=' :: v = ['='] ++ v := rfl
  obtain ⟨y, hy⟩ := h.comparison htext ⟨_, .equal⟩
  cases hy

theorem Unseen.unnoticed (h : Unseen (raw ++ gap) back back') :
    Unnoticed raw (gap ++ back) (gap ++ back') where
  number := by
    intro hnone
    rw [← List.append_assoc] at hnone ⊢
    exact Number.read?_eq_none_of_front h.hidden.number h.number hnone
  constant := by
    intro hnone
    rw [← List.append_assoc] at hnone ⊢
    exact Constant.read?_eq_none_of_front h.hidden.constant hnone
  comparison := fun _ hlongest => hlongest.of_hidden h.hidden

/-- Whether a comparison follows is settled in front of the change, unless the change is
right behind a `!`. -/
theorem Comparison.follows_gap (hgap : gap ≠ [])
    (hback : gap.getLast? = some '!' → back.head? ≠ some '=')
    (hback' : gap.getLast? = some '!' → back'.head? ≠ some '=') :
    Comparison.follows (gap ++ back) = Comparison.follows (gap ++ back') := by
  obtain ⟨d, gap, rfl⟩ := List.exists_cons_of_ne_nil hgap
  have hnext : ∀ {w : List Char}, ((d :: gap).getLast? = some '!' → w.head? ≠ some '=') →
      (['!', '='] <+: d :: gap ++ w ↔ ['!', '='] <+: d :: gap) := by
    intro w hw
    cases gap with
    | cons f gap => simp
    | nil =>
        cases w with
        | nil => simp
        | cons f w =>
            have hf : d = '!' → f ≠ '=' := by simpa using hw
            simp only [List.cons_append, List.nil_append, List.cons_prefix_cons,
              List.prefix_nil, List.nil_prefix, and_true, reduceCtorEq, and_false, iff_false]
            rintro ⟨rfl, rfl⟩
            exact hf rfl rfl
  rw [Bool.eq_iff_iff, Comparison.follows_iff, Comparison.follows_iff, hnext hback,
    hnext hback']
  rfl

/-! ### How a literal ends

What a rule asks of the text directly behind a literal is asked of the change itself
where nothing stands in between.  There the literal must not have been read in view of
what gives way.
-/

namespace Lexeme

/-- In front of another text a literal ends as before, and is read in view of the same. -/
structure EndsAlike (l : Lexeme) (rest rest' : List Char) : Prop where
  stops : Stops continuesLiteral rest'
  /-- Only the name of a type may have a colon behind it. -/
  colon : rest'.head? = some ':' → l.symbol.kind = .typeName
  text : l.symbol = textSymbol rest → textSymbol rest = textSymbol rest'
  word : ∀ span, l = readWord span rest → readWord span rest = readWord span rest'

/-- A literal ends as before where the text directly behind it is the same. -/
theorem EndsAlike.of_gap (hgap : gap ≠ [])
    (hfollows : Comparison.follows (gap ++ back) = Comparison.follows (gap ++ back'))
    (hcolon : gap.head? = some ':' → l.symbol.kind = .typeName)
    (hends : Stops continuesLiteral (gap ++ back)) : EndsAlike l (gap ++ back) (gap ++ back') := by
  have htext : textSymbol (gap ++ back) = textSymbol (gap ++ back') := by
    rw [textSymbol, hfollows, textSymbol]
  obtain ⟨c, gap, rfl⟩ := List.exists_cons_of_ne_nil hgap
  refine ⟨hends.replace hgap, hcolon, fun _ => htext, fun span _ => ?_⟩
  rw [readWord, readWord, htext]
  rfl

/-- Text that is not read in view of what stands behind it is read as at the end of a
query. -/
theorem textSymbol_of_promised? (h : (textSymbol rest).promised? = none) :
    textSymbol rest = textSymbol [] := by
  unfold textSymbol at h ⊢
  split at h
  · cases h
  · rename_i hfollows
    rw [if_neg hfollows]
    rfl

theorem readWord_of_promised? {span : Span} (h : (readWord span rest).symbol.promised? = none) :
    readWord span rest = readWord span [] := by
  unfold readWord at h ⊢
  split at h
  · rename_i hwildcard
    rw [if_pos hwildcard, if_pos hwildcard]
  · rename_i hwildcard
    split at h
    · cases h
    · rename_i hcall
      split at h
      · cases h
      · rename_i hcast
        rw [if_neg hwildcard, if_neg hcall, if_neg hcast, textSymbol_of_promised? h,
          if_neg hwildcard]
        rfl

/-- A literal that was read in view of nothing ends as before in front of a delimiter. -/
theorem EndsAlike.of_closed (hclosed : Closed rest') (hnone : l.symbol.promised? = none) :
    EndsAlike l rest rest' where
  stops := hclosed.stops_literal
  colon := fun hcolon => absurd hcolon (hclosed.head?_ne rfl)
  text := by
    intro hl
    rw [hl] at hnone
    exact (textSymbol_of_promised? hnone).trans (textSymbol_append_closed hclosed).symm
  word := by
    intro span hl
    rw [hl] at hnone
    exact (readWord_of_promised? hnone).trans (readWord_append_closed hclosed).symm

/-- Where the change is right behind a literal, the literal is not read in view of it. -/
def Settled (l : Lexeme) (gap back back' : List Char) : Prop :=
  gap = [] → Stops continuesLiteral back → Closed back' ∧ l.symbol.promised? = none

theorem Settled.endsAlike (h : Settled l gap back back')
    (hunseen : Unseen (raw ++ gap) back back')
    (hcolon : gap.head? = some ':' → l.symbol.kind = .typeName)
    (hends : Stops continuesLiteral (gap ++ back)) : EndsAlike l (gap ++ back) (gap ++ back') := by
  by_cases hgap : gap = []
  · subst hgap
    obtain ⟨hclosed, hnone⟩ := h rfl hends
    exact .of_closed hclosed hnone
  · have hlast : gap.getLast? = some '!' → back.head? ≠ some '=' := by
      intro hlast
      exact hunseen.comparison (by rw [List.getLast?_append, hlast, Option.some_or])
    exact .of_gap hgap
      (Comparison.follows_gap hgap hlast fun _ => hunseen.hidden.head?_ne_equal) hcolon hends

/-! ### The rules, behind the change -/

/-- A span is cut at a place where a literal ends, whatever stands behind it. -/
theorem read_of_stops {span : Span} (hrest : Stops continuesLiteral rest)
    (hends : Stops continuesLiteral back) (hcolon : back.head? ≠ some ':')
    (h : Span.read (span.text ++ rest) = span) : Span.read (span.text ++ back) = span := by
  have hpieces := congrArg Span.pieces h
  rw [Span.read, Date.opensWith_dayShape_append hrest.literal] at hpieces
  rw [Span.read, Date.opensWith_dayShape_append hends.literal]
  exact congrArg Span.mk (Span.piecesOf_text_append hpieces (Span.piecesOf_eq_nil hends hcolon))

theorem IsWord.of_unnoticed (hfound : Unnoticed raw rest rest')
    (hends : Stops continuesLiteral rest') (h : IsWord raw rest) : IsWord raw rest' :=
  ⟨h.ne_nil, h.head, h.literal, hends, hfound.constant h.no_constant, h.no_date,
    hfound.number h.no_number⟩

theorem IsWord.endsInLiteral (h : IsWord raw rest) : EndsInLiteral raw :=
  ⟨raw.getLast h.ne_nil, List.getLast?_eq_some_getLast h.ne_nil,
    h.literal _ (List.getLast_mem h.ne_nil)⟩

/-- **A lexeme is read the same in front of a text that shows it nothing new.**  How the
text ends a literal matters only to what ends in a character of one. -/
theorem Reading.of_unnoticed (hfound : Unnoticed raw rest rest')
    (hends : EndsInLiteral raw → Stops continuesLiteral rest → EndsAlike l rest rest')
    (h : Reading raw rest l) : Reading raw rest' l := by
  cases h with
  | punctuation h => exact .punctuation h
  | constant form => exact .constant form
  | comparison spelling longest =>
      exact .comparison spelling (hfound.comparison ⟨_, spelling⟩ longest)
  | sign h no_number => exact .sign h (hfound.number no_number)
  | number numeral ends =>
      obtain ⟨d, hlast, hdigit⟩ := numeral.getLast?
      exact .number numeral (hends ⟨d, hlast, isLiteral_of_isDigit hdigit⟩ ends).stops
  | date written ends =>
      have halike := hends written.endsInLiteral ends
      have hne : rest'.head? ≠ some ':' := fun hhead => nomatch halike.colon hhead
      exact .date written halike.stops (Span.escapeFree_of_piecesOf_eq_nil halike.stops
        (Span.piecesOf_eq_nil halike.stops hne))
  | @escaped span _ value head whole ends escaped decoded =>
      have halike := hends (Span.endsInLiteral_of_read whole escaped ends) ends
      have hne : rest'.head? ≠ some ':' := by
        intro hhead
        have hkind := halike.colon hhead
        rw [kind_textSymbol] at hkind
        cases hkind
      rw [halike.text rfl]
      exact .escaped head (read_of_stops ends halike.stops hne whole) halike.stops escaped decoded
  | word word =>
      have halike := hends word.endsInLiteral word.ends
      rw [halike.word _ rfl]
      exact .word (word.of_unnoticed hfound halike.stops)

/-- A lexeme is read the same in front of a change that brings up nothing new.  Only a
type name may have a colon behind it. -/
theorem Reading.of_unseen (hunseen : Unseen (raw ++ gap) back back')
    (hsettled : Settled l gap back back')
    (hcolon : gap.head? = some ':' → l.symbol.kind = .typeName)
    (h : Reading raw (gap ++ back) l) : Reading raw (gap ++ back') l :=
  h.of_unnoticed hunseen.unnoticed fun _ => hsettled.endsAlike hunseen hcolon

end Lexeme

/-! ### The text goes on behind a delimiter -/

theorem Constant.read?_append_closed (hv : Closed v)
    (hclose : v.head? = some ')' → u.getLast? ≠ some '(') (h : Constant.read? u = none) :
    Constant.read? (u ++ v) = none := by
  have hback : Constant.read? (u ++ []) = none := by rwa [List.append_nil]
  refine Constant.read?_eq_none_of_front ?_ hback
  intro raw after kind htext form
  obtain ⟨w, rfl, hw, hlast⟩ := Constant.exists_last_of_mem_forms form
  rw [List.append_assoc] at htext
  obtain ⟨y, rfl, hy⟩ := hv.exists_front hw htext
  cases y with
  | nil =>
      have hhead : v.head? = some ')' := by rw [← List.nil_append v, ← hy]; rfl
      rw [List.append_nil] at hclose
      exact absurd hlast (hclose hhead)
  | cons d y =>
      obtain ⟨rfl, -⟩ := List.cons.inj hy
      exact ⟨y, by simp⟩

/-- **A lexeme is read the same when the text goes on behind a delimiter**, unless that is
a parenthesis which closes a constant. -/
theorem Lexeme.Reading.append_closed (hv : Closed v)
    (hclose : v.head? = some ')' → (raw ++ rest).getLast? ≠ some '(')
    (hcolon : rest.head? = some ':' → l.symbol.kind = .typeName)
    (h : Lexeme.Reading raw rest l) : Lexeme.Reading raw (rest ++ v) l := by
  refine h.of_unnoticed ⟨?_, ?_, ?_⟩ fun _ hends => ⟨?_, ?_, ?_, ?_⟩
  · intro hnone
    rw [← List.append_assoc, Number.read?_append_closed hv, hnone]
  · intro hnone
    rw [← List.append_assoc]
    exact Constant.read?_append_closed hv hclose hnone
  · exact fun _ => (Comparison.longest_append_closed_iff hv).mpr
  · exact hv.stops_append_iff.mpr hends
  · exact fun hhead => hcolon ((hv.head?_append_iff rfl).mp hhead)
  · exact fun _ => (textSymbol_append_closed hv).symm
  · exact fun span _ => (readWord_append_closed hv).symm

/-! ### A literal gives way to an escaped text -/

/-- A literal with an escape in it. -/
structure EscapedText (e : List Char) : Prop where
  chars : ∀ c ∈ e, continuesLiteral c = true
  escape : '%' ∈ e

namespace EscapedText

/-- A text without `%` that starts in front of an escaped text ends in front of it, or
breaks off inside it. -/
theorem split (he : EscapedText e) (h : front ++ (e ++ rest) = u ++ v) (hu : '%' ∉ u) :
    (∃ y, front = u ++ y) ∨
      ∃ y z, u = front ++ y ∧ e = y ++ z ∧ v = z ++ rest ∧ y ≠ [] ∧ z ≠ [] := by
  rcases List.append_eq_append_iff.mp h with ⟨y, rfl, hy⟩ | ⟨y, rfl, -⟩
  · by_cases hnil : y = []
    · subst hnil
      exact .inl ⟨[], by simp⟩
    · -- the escaped text is not over where `u` is, for there is a `%` in it
      have hpercent : '%' ∉ y := fun hmem => hu (List.mem_append_right front hmem)
      rcases List.append_eq_append_iff.mp hy with ⟨z, rfl, -⟩ | ⟨z, rfl, hz⟩
      · exact absurd (List.mem_append_left z he.escape) hpercent
      · refine .inr ⟨y, z, rfl, rfl, hz, hnil, ?_⟩
        rintro rfl
        exact hpercent (by simpa using he.escape)
  · exact .inl ⟨y, rfl⟩

/-- What ends inside an escaped text has a literal going on behind it. -/
theorem not_stops_inside (he : EscapedText e) (hsplit : e = u ++ v) (hv : v ≠ []) :
    ¬ Stops continuesLiteral (v ++ rest) := by
  obtain ⟨c, v, rfl⟩ := List.exists_cons_of_ne_nil hv
  intro hstops
  have := Stops.cons_iff.mp hstops
  rw [he.chars c (hsplit ▸ List.mem_append_right u List.mem_cons_self)] at this
  cases this

theorem not_stops (he : EscapedText e) : ¬ Stops continuesLiteral (e ++ rest) :=
  he.not_stops_inside (List.nil_append e).symm (List.ne_nil_of_mem he.escape)

/-- What ends inside an escaped text ends in a character that a literal can have. -/
theorem continues_of_last {d : Char} {w : List Char} (he : EscapedText e) (hsplit : e = u ++ v)
    (hu : u ≠ []) (hlast : front ++ u = w ++ [d]) : continuesLiteral d = true := by
  have hgetLast : (front ++ u).getLast? = some d := by rw [hlast]; simp
  rw [List.getLast?_append_of_ne_nil front hu] at hgetLast
  exact he.chars d (hsplit ▸ List.mem_append_left v (List.mem_of_getLast? hgetLast))

end EscapedText

/-- Nothing that starts in front of an escaped text ends inside it. -/
theorem EscapedText.hidden (he : EscapedText e) (rest : List Char) : Hidden (e ++ rest) where
  number := by
    intro front u v h numeral hends
    rcases he.split h numeral.no_percent with hfront | ⟨y, z, -, hsplit, rfl, -, hz⟩
    · exact hfront
    · exact absurd hends (he.not_stops_inside hsplit hz)
  constant := by
    intro front u v kind h form
    rcases he.split h (form_of_constant form).no_percent with hfront | ⟨y, z, hu, hsplit, -, hy, -⟩
    · exact hfront
    · obtain ⟨d, word, hword, -, -⟩ := Constant.exists_word_of_mem_forms form
      have hlast : front ++ y = (d :: word ++ ['(']) ++ [')'] := by
        rw [← hu, hword, List.append_assoc]
        rfl
      cases he.continues_of_last hsplit hy hlast
  comparison := by
    rintro front u v h ⟨operator, spelling⟩
    rcases he.split h spelling.no_percent with hfront | ⟨y, z, hu, hsplit, -, hy, -⟩
    · exact hfront
    · obtain ⟨w, d, hlast, hd, -⟩ := spelling.exists_last
      have hcontinues := he.continues_of_last hsplit hy (hu.symm.trans hlast)
      rw [Lexeme.opens_of_continuesLiteral hcontinues] at hd
      cases hd

theorem EscapedText.unseen (he : EscapedText e) (hc : continuesLiteral c = true) :
    Unseen front (c :: tail) (e ++ rest) where
  hidden := he.hidden rest
  number := fun _ hstops => absurd hstops he.not_stops
  comparison := by
    intro _ hhead
    obtain rfl := Option.some.inj hhead
    cases hc

/-- **A lexeme is read the same when a literal further on gives way to an escaped
text.**  Only a type name may have a colon behind it. -/
theorem Lexeme.Reading.replace (hc : continuesLiteral c = true) (he : EscapedText e)
    (hcolon : (gap ++ c :: tail).head? = some ':' → l.symbol.kind = .typeName)
    (h : Reading raw (gap ++ c :: tail) l) : Reading raw (gap ++ (e ++ rest)) l := by
  refine h.of_unseen (he.unseen hc) ?_ ?_
  · rintro rfl hstops
    have := Stops.cons_iff.mp hstops
    rw [hc] at this
    cases this
  · intro hgap
    apply hcolon
    rw [List.head?_append, hgap, Option.some_or]

end ResourceQuery

/-
What a span takes, whatever stands behind it.

Pieces are read one after another, and only a colon asks for what follows it, so a
span is cut at a place where nothing more of it can start: the pieces in front of
that place are the same with any other such text behind it.  Literal characters
become a piece each, so the span of a text without escapes is the run of its literal
characters, unless it opens like a date.
-/
import ResourceQuery.Literal.Span
import ResourceQuery.Proofs.Literal.Date

namespace ResourceQuery.Span

variable {timed : Bool} {ps : List Piece} {raw rest rest' cs : List Char} {c : Char}

/-! ### One piece -/

theorem piecesOf_cons (hc : c ≠ '%') :
    piecesOf timed (c :: cs) =
      if isLiteral c || (timed && c = ':' && digitFollows cs) then
        .raw c :: piecesOf timed cs
      else [] := by
  conv =>
    lhs
    unfold piecesOf
  split
  · rename_i h
    cases h
  · rename_i h
    exact absurd (List.cons.inj h).1 hc
  · rename_i h
    obtain ⟨rfl, rfl⟩ := List.cons.inj h
    rfl

theorem piecesOf_escape {high low : Char} (hhigh : isHexDigit high = true)
    (hlow : isHexDigit low = true) :
    piecesOf timed ('%' :: high :: low :: cs) = .escape high low :: piecesOf timed cs := by
  conv =>
    lhs
    unfold piecesOf
  simp [hhigh, hlow]

theorem piecesOf_percent {high low : Char} (h : ¬ (isHexDigit high && isHexDigit low) = true) :
    piecesOf timed ('%' :: high :: low :: cs) = [] := by
  unfold piecesOf
  simp [h]

theorem ne_percent_of_isLiteral (h : isLiteral c = true) : c ≠ '%' := by
  rintro rfl
  cases h

theorem piecesOf_literal (hc : isLiteral c = true) :
    piecesOf timed (c :: cs) = .raw c :: piecesOf timed cs := by
  simp [piecesOf_cons (ne_percent_of_isLiteral hc), hc]

/-- What a span can take first: a literal character, a colon of a time, or an
escape. -/
theorem piecesOf_eq_cons {p : Piece} (h : piecesOf timed cs = p :: ps) :
    (∃ c rest, p = .raw c ∧ cs = c :: rest ∧ ps = piecesOf timed rest ∧
      (isLiteral c = true ∨ timed = true ∧ c = ':' ∧ digitFollows rest = true)) ∨
    (∃ high low rest, p = .escape high low ∧ cs = '%' :: high :: low :: rest ∧
      ps = piecesOf timed rest ∧ isHexDigit high = true ∧ isHexDigit low = true) := by
  unfold piecesOf at h
  split at h
  · cases h
  · rename_i high low rest
    split at h
    · rename_i hhex
      obtain ⟨rfl, rfl⟩ := List.cons.inj h
      rw [Bool.and_eq_true] at hhex
      exact .inr ⟨high, low, rest, rfl, rfl, rfl, hhex⟩
    · cases h
  · rename_i c rest _
    split at h
    · rename_i hc
      obtain ⟨rfl, rfl⟩ := List.cons.inj h
      refine .inl ⟨c, rest, rfl, rfl, rfl, ?_⟩
      simpa [and_assoc] using hc
    · cases h

/-! ### Where a span ends -/

theorem stops_of_piecesOf_eq_nil (h : piecesOf timed cs = []) : Stops isLiteral cs := by
  cases cs with
  | nil => exact Stops.nil
  | cons c cs =>
      refine Stops.cons_iff.mpr ?_
      cases hc : isLiteral c with
      | false => rfl
      | true => simp [piecesOf_literal hc] at h

theorem stops_continuesLiteral (h : Stops isLiteral cs) (hcs : cs.head? ≠ some '%') :
    Stops continuesLiteral cs := by
  intro c hc
  have hne : c ≠ '%' := by
    rintro rfl
    exact hcs hc
  simp [continuesLiteral, h c hc, hne]

theorem piecesOf_eq_nil (hends : Stops continuesLiteral cs) (hcolon : cs.head? ≠ some ':') :
    piecesOf timed cs = [] := by
  cases cs with
  | nil => rfl
  | cons c cs =>
      have hc : isLiteral c = false ∧ ¬c = '%' := by
        simpa [continuesLiteral] using Stops.cons_iff.mp hends
      have hne : c ≠ ':' := by simpa using hcolon
      simp [piecesOf_cons hc.2, hc.1, hne]

theorem piecesOf_untimed_eq_nil (hends : Stops continuesLiteral cs) :
    piecesOf false cs = [] := by
  cases cs with
  | nil => rfl
  | cons c cs =>
      have hc : isLiteral c = false ∧ ¬c = '%' := by
        simpa [continuesLiteral] using Stops.cons_iff.mp hends
      simp [piecesOf_cons hc.2, hc.1]

theorem digitFollows_append (h : piecesOf timed rest = []) :
    digitFollows (raw ++ rest) = digitFollows raw := by
  cases raw with
  | cons c raw => rfl
  | nil =>
      cases rest with
      | nil => rfl
      | cons c rest =>
          have hc := Stops.cons_iff.mp (stops_of_piecesOf_eq_nil h)
          cases hdigit : c.isDigit with
          | false => exact hdigit
          | true => simp [isLiteral_of_isDigit hdigit] at hc

theorem piecesOf_tail {p : Piece}
    (h : piecesOf timed ((p :: ps).flatMap Piece.text ++ rest) = p :: ps) :
    piecesOf timed (ps.flatMap Piece.text ++ rest) = ps := by
  rcases piecesOf_eq_cons h with ⟨c, cs, rfl, hcs, hps, -⟩ | ⟨high, low, cs, rfl, hcs, hps, -⟩
  · obtain rfl : ps.flatMap Piece.text ++ rest = cs := by simpa [Piece.text] using hcs
    exact hps.symm
  · obtain rfl : ps.flatMap Piece.text ++ rest = cs := by simpa [Piece.text] using hcs
    exact hps.symm

theorem piecesOf_behind (h : piecesOf timed (ps.flatMap Piece.text ++ rest) = ps) :
    piecesOf timed rest = [] := by
  induction ps with
  | nil => exact h
  | cons p ps ih => exact ih (piecesOf_tail h)

theorem text_append_drop (cs : List Char) :
    (read cs).text ++ cs.drop (read cs).length = cs :=
  List.prefix_iff_eq_append.mp <| text_read_prefix cs

/-- The pieces of what is read of a text are those of the text. -/
theorem piecesOf_text_read (cs : List Char) :
    piecesOf (Date.opensWith Date.dayShape cs)
      ((read cs).pieces.flatMap Piece.text ++ cs.drop (read cs).length) = (read cs).pieces :=
  congrArg (piecesOf (Date.opensWith Date.dayShape cs)) (text_append_drop cs)

/-- The pieces of a text stay the same with another text behind it, as long as
either ends the span. -/
theorem piecesOf_text_append (h : piecesOf timed (ps.flatMap Piece.text ++ rest) = ps)
    (hends : piecesOf timed rest' = []) :
    piecesOf timed (ps.flatMap Piece.text ++ rest') = ps := by
  induction ps with
  | nil => exact hends
  | cons p ps ih =>
      have htail := ih (piecesOf_tail h)
      rcases piecesOf_eq_cons h with ⟨c, cs, rfl, hcs, -, hc⟩ |
        ⟨high, low, cs, rfl, hcs, -, hhigh, hlow⟩
      · obtain rfl : ps.flatMap Piece.text ++ rest = cs := by simpa [Piece.text] using hcs
        -- only a colon looks ahead, and what it looks at is a piece of this span
        have hnext : isLiteral c = true ∨
            timed = true ∧ c = ':' ∧ digitFollows (ps.flatMap Piece.text ++ rest') = true := by
          rwa [digitFollows_append hends, ← digitFollows_append (piecesOf_behind h)]
        have hcne : c ≠ '%' := by
          rcases hnext with hc | ⟨-, rfl, -⟩
          · exact ne_percent_of_isLiteral hc
          · decide
        rw [List.flatMap_cons, Piece.text, List.append_assoc, List.singleton_append,
          piecesOf_cons hcne, if_pos (by simpa [and_assoc] using hnext), htail]
      · rw [List.flatMap_cons, Piece.text, List.append_assoc, List.cons_append, List.cons_append,
          List.singleton_append, piecesOf_escape hhigh hlow, htail]

/-! ### Spans without escapes -/

/-- The span of characters that stand for themselves. -/
def ofChars (raw : List Char) : Span :=
  ⟨raw.map Piece.raw⟩

@[simp] theorem text_ofChars (raw : List Char) : (ofChars raw).text = raw := by
  induction raw with
  | nil => rfl
  | cons c raw ih => simpa [ofChars, text, Piece.text] using ih

@[simp] theorem length_ofChars (raw : List Char) : (ofChars raw).length = raw.length := by
  rw [length, text_ofChars]

theorem hasWildcard_ofChars_iff (raw : List Char) :
    (ofChars raw).hasWildcard = true ↔ '*' ∈ raw ∨ '?' ∈ raw := by
  simp [hasWildcard, ofChars, Piece.isWildcard, and_or_left, exists_or]

theorem piecesOf_literals (hraw : ∀ c ∈ raw, isLiteral c = true) :
    piecesOf timed (raw ++ rest) = raw.map Piece.raw ++ piecesOf timed rest := by
  induction raw with
  | nil => rfl
  | cons c raw ih =>
      rw [List.cons_append, piecesOf_literal (hraw c List.mem_cons_self),
        ih fun d hd => hraw d (List.mem_cons_of_mem _ hd)]
      rfl

/-- A span of literal characters that do not open with a day ends where they do. -/
theorem read_literals (hraw : ∀ c ∈ raw, isLiteral c = true)
    (hends : Stops continuesLiteral rest)
    (hday : Date.opensWith Date.dayShape raw = false) : read (raw ++ rest) = ofChars raw := by
  rw [read, Date.opensWith_dayShape_append hends.literal, hday, piecesOf_literals hraw,
    piecesOf_untimed_eq_nil hends, List.append_nil, ofChars]

/-- In a date the colons are pieces too. -/
theorem piecesOf_written (h : Date.Written raw) :
    piecesOf true (raw ++ rest) = raw.map Piece.raw ++ piecesOf true rest := by
  obtain ⟨digits⟩ := h
  have hcolon : ∀ cs, digitFollows cs = true →
      piecesOf true (':' :: cs) = .raw ':' :: piecesOf true cs := by
    intro cs hcs
    simp [piecesOf_cons, hcs]
  have hliteral := fun c hc => isLiteral_of_isDigit (digits c hc)
  simp only [List.mem_cons, List.not_mem_nil, or_false, forall_eq_or_imp, forall_eq]
    at digits hliteral
  simp [piecesOf_literal, hliteral, hcolon, digitFollows, digits,
    piecesOf_literal (show isLiteral '-' = true from rfl),
    piecesOf_literal (show isLiteral 'T' = true from rfl),
    piecesOf_literal (show isLiteral 'Z' = true from rfl)]

/-- A span starts with a literal character or an escape: a colon opens no date. -/
theorem continuesLiteral_of_read (h : (read (c :: cs)).pieces ≠ []) :
    continuesLiteral c = true := by
  obtain ⟨p, ps, hps⟩ := List.exists_cons_of_ne_nil h
  rcases piecesOf_eq_cons hps with ⟨d, rest, -, hcs, -, hd⟩ | ⟨high, low, rest, -, hcs, -⟩
  · obtain ⟨rfl, -⟩ := List.cons.inj hcs
    rcases hd with hd | ⟨hday, rfl, -⟩
    · exact continuesLiteral_of_isLiteral hd
    · exact absurd (Date.isDigit_of_opensWith_dayShape hday) (by decide)
  · obtain ⟨rfl, -⟩ := List.cons.inj hcs
    rfl

/-- A span with an escape is not empty, and starts like a literal. -/
theorem exists_cons_of_isEscaped {span : Span} (hwhole : read (span.text ++ rest) = span)
    (hescaped : span.isEscaped = true) :
    ∃ c cs, span.text = c :: cs ∧ continuesLiteral c = true := by
  have hpieces := pieces_ne_nil_of_isEscaped hescaped
  obtain ⟨c, cs, htext⟩ := List.exists_cons_of_ne_nil (List.length_pos_iff.mp (length_pos hpieces))
  refine ⟨c, cs, htext, ?_⟩
  have hread : (read (c :: (cs ++ rest))).pieces ≠ [] := by
    rwa [← List.cons_append, ← htext, hwhole]
  exact continuesLiteral_of_read hread

/-- No escape is met where a span goes on into a text. -/
structure EscapeFree (timed : Bool) (cs : List Char) : Prop where
  unescaped : (piecesOf timed cs).any Piece.isEscape = false
  ends : (cs.drop (⟨piecesOf timed cs⟩ : Span).length).head? ≠ some '%'

theorem escapeFree_of_piecesOf_eq_nil (hends : Stops continuesLiteral cs)
    (h : piecesOf timed cs = []) : EscapeFree timed cs := by
  refine ⟨by simp [h], ?_⟩
  intro hhead
  simp only [h, length, text, List.flatMap_nil, List.length_nil, List.drop_zero] at hhead
  obtain ⟨cs, rfl⟩ := List.head?_eq_some_iff.mp hhead
  exact absurd (Stops.cons_iff.mp hends) (by decide)

theorem escapeFree_append_iff
    (h : piecesOf timed (raw ++ rest) = raw.map Piece.raw ++ piecesOf timed rest) :
    EscapeFree timed (raw ++ rest) ↔ EscapeFree timed rest := by
  have hany : (piecesOf timed (raw ++ rest)).any Piece.isEscape =
      (piecesOf timed rest).any Piece.isEscape := by
    simp [h, Piece.isEscape]
  have hlength : (⟨piecesOf timed (raw ++ rest)⟩ : Span).length =
      raw.length + (⟨piecesOf timed rest⟩ : Span).length := by
    have hraw := length_ofChars raw
    simp only [length, text, ofChars] at hraw ⊢
    rw [h, List.flatMap_append, List.length_append, hraw]
  have hdrop : (raw ++ rest).drop (⟨piecesOf timed (raw ++ rest)⟩ : Span).length =
      rest.drop (⟨piecesOf timed rest⟩ : Span).length := by
    rw [hlength, ← List.drop_drop, List.drop_left]
  constructor
  · rintro ⟨hunescaped, hends⟩
    exact ⟨hany ▸ hunescaped, hdrop ▸ hends⟩
  · rintro ⟨hunescaped, hends⟩
    exact ⟨hany ▸ hunescaped, hdrop ▸ hends⟩

theorem escapeFree_literals_iff (hraw : ∀ c ∈ raw, isLiteral c = true) :
    EscapeFree timed (raw ++ rest) ↔ EscapeFree timed rest :=
  escapeFree_append_iff (piecesOf_literals hraw)

theorem stops_of_escapeFree (hrest : Stops isLiteral rest) (h : EscapeFree false rest) :
    Stops continuesLiteral rest := by
  obtain ⟨hunescaped, hends⟩ := h
  have hnil : piecesOf false rest = [] := by
    cases hpieces : piecesOf false rest with
    | nil => rfl
    | cons p ps =>
        rcases piecesOf_eq_cons hpieces with ⟨c, cs, rfl, rfl, -, hc | hc⟩ | ⟨_, _, _, rfl, -⟩
        · rw [Stops.cons_iff.mp hrest] at hc
          cases hc
        · cases hc.1
        · simp [hpieces, Piece.isEscape] at hunescaped
  simp only [hnil, length, text, List.flatMap_nil, List.length_nil, List.drop_zero] at hends
  exact stops_continuesLiteral hrest hends

/-- A text goes on without an escape exactly as far as its literal characters, if
these end as a literal does. -/
theorem escapeFree_untimed_iff :
    EscapeFree false cs ↔
      ∃ raw rest, cs = raw ++ rest ∧ (∀ c ∈ raw, isLiteral c = true) ∧
        Stops continuesLiteral rest := by
  constructor
  · intro h
    obtain ⟨raw, rest, rfl, hraw, hrest⟩ := exists_run isLiteral cs
    rw [escapeFree_literals_iff hraw] at h
    exact ⟨raw, rest, rfl, hraw, stops_of_escapeFree hrest h⟩
  · rintro ⟨raw, rest, rfl, hraw, hends⟩
    rw [escapeFree_literals_iff hraw]
    exact escapeFree_of_piecesOf_eq_nil hends (piecesOf_untimed_eq_nil hends)

end ResourceQuery.Span

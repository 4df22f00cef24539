/-
Where a token ends.

A blank may be put at a place where a token ends, or the rest of the query be cut off
there, and all that is read in front of the place is read as before.  For nothing that is
found has a blank in it; and what ends in front of the place now ended there already.
What makes it so is that no token ends in a digit that a literal goes on behind, and none
in a `!`, which is all that could be read otherwise (`Seam`).

Only what was read in view of what stood behind the place is another matter, and
`Symbol.promised?` says which lexemes these are.
-/
import ResourceQuery.Proofs.Lexeme.Lookahead

namespace ResourceQuery

variable {front gap back back' rest raw u v : List Char} {c : Char} {l : Lexeme}

/-- The text is empty, or starts with a blank. -/
def Apart (cs : List Char) : Prop :=
  ∀ c ∈ cs.head?, isBlank c = true

/-! ### Nothing that is found has a blank in it -/

theorem Apart.closed (h : Apart back) : Closed back :=
  fun c hc => isDelimiter_of_isBlank (h c hc)

theorem Constant.not_isBlank {kind : Kind} (h : (raw, kind) ∈ forms) :
    ∀ c ∈ raw, isBlank c = false := by
  obtain ⟨w, rfl, hw, -⟩ := exists_last_of_mem_forms h
  intro c hc
  rcases List.mem_append.mp hc with hc | hc
  · exact isBlank_of_not_isDelimiter (hw c hc)
  · obtain rfl := List.mem_singleton.mp hc
    rfl

/-- Numbers and comparisons have no delimiter in them, and constants at least no blank. -/
theorem Apart.hidden (h : Apart back) : Hidden back where
  number := by
    intro front u v htext numeral _
    obtain ⟨y, hy, -⟩ := h.closed.exists_front numeral.not_isDelimiter htext
    exact ⟨y, hy⟩
  constant := by
    intro front u v kind htext form
    have hblank : ∀ c ∈ back.head?, c ∉ u := by
      intro c hc hmem
      have := h c hc
      rw [Constant.not_isBlank form c hmem] at this
      cases this
    obtain ⟨y, hy, -⟩ := exists_front hblank htext
    exact ⟨y, hy⟩
  comparison := by
    rintro front u v htext ⟨operator, spelling⟩
    obtain ⟨y, hy, -⟩ := h.closed.exists_front spelling.not_isDelimiter htext
    exact ⟨y, hy⟩

/-! ### How tokens end -/

/-- What stands in front of the place ends as a token does: behind a digit no literal goes
on, and no token ends in `!`. -/
structure Seam (front back : List Char) : Prop where
  digit : ∀ d, front.getLast? = some d → d.isDigit = true → Stops continuesLiteral back
  bang : front.getLast? ≠ some '!'

theorem Seam.append_left_iff (hgap : gap ≠ []) (raw : List Char) :
    Seam (raw ++ gap) back ↔ Seam gap back := by
  have hlast : (raw ++ gap).getLast? = gap.getLast? := List.getLast?_append_of_ne_nil raw hgap
  constructor
  · rintro ⟨digit, bang⟩
    exact ⟨hlast ▸ digit, hlast ▸ bang⟩
  · rintro ⟨digit, bang⟩
    exact ⟨hlast ▸ digit, hlast ▸ bang⟩

theorem Seam.of_stops (hends : Stops continuesLiteral rest) (hbang : '!' ∉ raw) :
    Seam raw rest :=
  ⟨fun _ _ _ => hends, fun hlast => hbang (List.mem_of_getLast? hlast)⟩

theorem Seam.of_last {d : Char} (hd : d.isDigit = false) (hbang : d ≠ '!') :
    Seam (u ++ [d]) rest := by
  have hlast : (u ++ [d]).getLast? = some d := by simp
  refine ⟨?_, ?_⟩
  · intro c hc hdigit
    obtain rfl := Option.some.inj (hlast.symm.trans hc)
    rw [hd] at hdigit
    cases hdigit
  · rw [hlast]
    exact fun h => hbang (Option.some.inj h)

namespace Lexeme

theorem seam_of_punctuation? {kind : Kind} (h : punctuation? c = some kind) : Seam [c] rest := by
  unfold punctuation? at h
  split at h <;> first | exact Seam.of_last (u := []) rfl (by decide) | cases h

theorem seam_of_sign? {kind : Kind} (h : sign? c = some kind) : Seam [c] rest := by
  unfold sign? at h
  split at h <;> first | exact Seam.of_last (u := []) rfl (by decide) | cases h

/-- A lexeme ends as a token does. -/
theorem Reading.seam (h : Reading raw rest l) : Seam raw rest := by
  cases h with
  | punctuation h => exact seam_of_punctuation? h
  | sign h => exact seam_of_sign? h
  | constant form =>
      obtain ⟨d, word, rfl, -, -⟩ := Constant.exists_word_of_mem_forms form
      have hlast : d :: word ++ ['(', ')'] = (d :: word ++ ['(']) ++ [')'] := by simp
      exact hlast ▸ Seam.of_last rfl (by decide)
  | comparison spelling =>
      obtain ⟨w, d, rfl, hd, hbang⟩ := spelling.exists_last
      refine Seam.of_last (Bool.eq_false_iff.mpr ?_) hbang
      intro hdigit
      rw [opens_of_continuesLiteral (continuesLiteral_of_isDigit hdigit)] at hd
      cases hd
  | number numeral ends =>
      refine Seam.of_stops ends fun hmem => ?_
      rcases numeral.isLiteral_or '!' hmem with h | h <;> cases h
  | date written ends =>
      obtain ⟨-⟩ := written
      exact ⟨fun _ _ _ => ends, by simp⟩
  | escaped _ whole ends =>
      refine Seam.of_stops ends fun hmem => ?_
      have hpieces := congrArg Span.pieces whole
      rcases Span.continuesLiteral_or_of_piecesOf hpieces '!' hmem with h | h <;> cases h
  | word word => exact Seam.of_stops word.ends fun hmem => nomatch word.literal '!' hmem

/-- **A lexeme is read the same when a blank, or nothing, is put where a token ends.**  If it
is the token that ends there, it must not have been read in view of what stood there. -/
theorem Reading.apart (hseam : Seam (raw ++ gap) back) (hback' : Apart back')
    (hnone : gap = [] → l.symbol.promised? = none)
    (hcolon : gap.head? = some ':' → l.symbol.kind = .typeName)
    (h : Reading raw (gap ++ back) l) : Reading raw (gap ++ back') l := by
  refine h.of_unseen ⟨hback'.hidden, ?_, ?_⟩ ?_ hcolon
  · intro numeral _
    obtain ⟨d, hlast, hdigit⟩ := numeral.getLast?
    exact hseam.digit d hlast hdigit
  · intro hlast
    exact absurd hlast hseam.bang
  · intro hgap _
    exact ⟨hback'.closed, hnone hgap⟩

end Lexeme

end ResourceQuery

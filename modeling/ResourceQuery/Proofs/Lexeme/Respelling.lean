/-
A comparison may be spelled otherwise, for all that the lexemes in front of it see of it.

Every spelling starts with one of four characters, and none of them stands in a literal,
a number or a constant.  So where one spelling gives way to another, whatever is read in
front of it ends in front of it as before, and text directly in front of it is a field
as before.

The one exception is another comparison further in front: an `=` could reach up to the
first `=` of the new spelling and make a named form of what stands between.  It cannot
if a character stands there that no name has.
-/
import ResourceQuery.Proofs.Lexeme.Lookahead

namespace ResourceQuery

variable {raw gap back old new rest u v w : List Char} {operator : String} {kind : Kind}
  {l : Lexeme}

/-! ### What a spelling starts with stands in nothing else -/

theorem Number.Numeral.not_opens (h : Number.Numeral raw) :
    ∀ c ∈ raw, Comparison.opens c = false := by
  intro c hc
  rcases h.isLiteral_or c hc with hc | rfl
  · exact Lexeme.opens_of_continuesLiteral (continuesLiteral_of_isLiteral hc)
  · rfl

theorem Constant.not_opens (h : (raw, kind) ∈ Constant.forms) :
    ∀ c ∈ raw, Comparison.opens c = false := by
  obtain ⟨c, word, rfl, hword, -⟩ := Constant.exists_word_of_mem_forms h
  intro d hd
  rcases List.mem_append.mp hd with hd | hd
  · exact Lexeme.opens_of_continuesLiteral (continuesLiteral_of_isLiteral (hword d hd))
  · simp only [List.mem_cons, List.not_mem_nil, or_false] at hd
    rcases hd with rfl | rfl <;> rfl

namespace Comparison

/-- What has no character that opens a comparison ends in front of a spelling. -/
theorem Spelled.exists_front (hnew : Spelled new) (hu : ∀ c ∈ u, opens c = false)
    (h : gap ++ (new ++ back) = u ++ v) : ∃ y, gap = u ++ y := by
  obtain ⟨operator, spelling⟩ := hnew
  obtain ⟨c, cs, rfl, hc⟩ := spelling.exists_opens
  have hhead : ∀ d ∈ ((c :: cs) ++ back).head?, d ∉ u := by
    intro d hd hmem
    obtain rfl := Option.some.inj hd
    rw [hu _ hmem] at hc
    cases hc
  obtain ⟨y, hy, -⟩ := ResourceQuery.exists_front hhead h
  exact ⟨y, hy⟩

theorem Spelled.stops (hnew : Spelled new) : Stops continuesLiteral (new ++ back) := by
  obtain ⟨operator, spelling⟩ := hnew
  obtain ⟨c, cs, rfl, hc⟩ := spelling.exists_opens
  refine Stops.cons_iff.mpr (Bool.eq_false_iff.mpr fun hcontinues => ?_)
  rw [Lexeme.opens_of_continuesLiteral hcontinues] at hc
  cases hc

theorem Spelled.head?_ne {c : Char} (hc : opens c = false) (hnew : Spelled new) :
    (new ++ back).head? ≠ some c := by
  obtain ⟨operator, spelling⟩ := hnew
  obtain ⟨d, ds, rfl, hd⟩ := spelling.exists_opens
  intro hhead
  obtain rfl := Option.some.inj hhead
  rw [hc] at hd
  cases hd

theorem Spelled.follows (hnew : Spelled new) : follows (new ++ back) = true :=
  follows_iff_exists.mpr ⟨new, back, rfl, hnew⟩

/-! ### How far a comparison reaches -/

/-- Only the characters of a name stand between the first and the last of a spelling. -/
theorem Spelling.continuesName_inside (h : Spelling raw operator) :
    ∀ c ∈ raw.tail.dropLast, continuesName c = true := by
  cases h with
  | @named c name head tail =>
      have hinside : ('=' :: (c :: name ++ ['='])).tail.dropLast = c :: name :=
        List.dropLast_concat
      rw [hinside]
      intro d hd
      rcases List.mem_cons.mp hd with rfl | hd
      · exact continuesName_of_isAlpha head
      · exact tail d hd
  | _ => simp

/-- A comparison does not reach over what no name has. -/
theorem Longest.of_gap (hgap : ∃ c ∈ gap, continuesName c = false) (hraw : raw ≠ [])
    (h : Longest raw (gap ++ back)) : Longest raw (gap ++ v) := by
  refine h.of_front ?_
  intro more after htext hspelled
  rcases List.append_eq_append_iff.mp htext with ⟨y, rfl, -⟩ | ⟨y, hy, -⟩
  · by_cases hnil : y = []
    · exact ⟨[], by simp [hnil]⟩
    · -- the new spelling has the gap inside, with all its characters
      obtain ⟨operator, spelling⟩ := hspelled
      obtain ⟨c, hc, hname⟩ := hgap
      have hmem : c ∈ (raw ++ (gap ++ y)).tail.dropLast := by
        rw [List.tail_append_of_ne_nil hraw, ← List.append_assoc,
          List.dropLast_append_of_ne_nil hnil]
        exact List.mem_append_left _ (List.mem_append_right _ hc)
      rw [spelling.continuesName_inside c hmem] at hname
      cases hname
  · exact ⟨y, hy⟩

end Comparison

open Comparison

/-- Another spelling of a comparison shows nothing new, unless another comparison reaches
up to it. -/
theorem Unnoticed.of_spelled (hold : Spelled old) (hnew : Spelled new)
    (hgap : Spelled raw → ∃ c ∈ gap, continuesName c = false) :
    Unnoticed raw (gap ++ (old ++ back)) (gap ++ (new ++ back)) where
  number := by
    intro hnone
    rw [← List.append_assoc] at hnone ⊢
    refine Number.read?_eq_none_of_front ?_ (fun _ _ => hold.stops) hnone
    intro u v htext numeral _
    exact hnew.exists_front numeral.not_opens htext
  constant := by
    intro hnone
    rw [← List.append_assoc] at hnone ⊢
    refine Constant.read?_eq_none_of_front ?_ hnone
    intro u v kind htext form
    exact hnew.exists_front (Constant.not_opens form) htext
  comparison := by
    intro hspelled hlongest
    obtain ⟨operator, spelling⟩ := hspelled
    obtain ⟨c, cs, rfl, -⟩ := spelling.exists_opens
    exact hlongest.of_gap (hgap ⟨_, spelling⟩) (List.cons_ne_nil c cs)

namespace Lexeme

/-- Directly in front of a comparison a literal ends as in front of another one. -/
theorem EndsAlike.of_spelled (hold : Spelled old) (hnew : Spelled new) :
    EndsAlike l (old ++ back) (new ++ back) where
  stops := hnew.stops
  colon := fun hcolon => absurd hcolon (hnew.head?_ne rfl)
  text := by
    intro _
    rw [textSymbol, textSymbol, hold.follows, hnew.follows]
  word := by
    intro span _
    simp only [readWord, textSymbol, hold.follows, hnew.follows,
      show (old ++ back).head? ≠ some '(' from hold.head?_ne rfl,
      show (new ++ back).head? ≠ some '(' from hnew.head?_ne rfl,
      show (old ++ back).head? ≠ some ':' from hold.head?_ne rfl,
      show (new ++ back).head? ≠ some ':' from hnew.head?_ne rfl]

/-- **A lexeme is read the same in front of another spelling of a comparison.** -/
theorem Reading.respell (hold : Spelled old) (hnew : Spelled new)
    (hgap : Spelled raw → ∃ c ∈ gap, continuesName c = false) (hbang : gap.getLast? ≠ some '!')
    (hcolon : gap.head? = some ':' → l.symbol.kind = .typeName)
    (h : Reading raw (gap ++ (old ++ back)) l) : Reading raw (gap ++ (new ++ back)) l := by
  refine h.of_unnoticed (.of_spelled hold hnew hgap) fun _ hends => ?_
  by_cases hnil : gap = []
  · subst hnil
    exact .of_spelled hold hnew
  · exact .of_gap hnil (follows_gap hnil (fun h => absurd h hbang) fun h => absurd h hbang)
      hcolon hends

/-- What is spelled like a comparison is read as one. -/
theorem Reading.of_spelled (hspelled : Spelled raw) (h : Reading raw rest l) :
    Spelling raw l.value ∧ l.symbol = .comparison := by
  obtain ⟨operator, spelling⟩ := hspelled
  obtain ⟨c, cs, rfl, -⟩ := spelling.exists_opens
  have hlength := h.length
  have hread : readComparison c (c :: (cs ++ rest)) = .ok l :=
    (read_of_spelling spelling rfl).symm.trans (h.read rfl)
  unfold readComparison at hread
  split at hread
  · rename_i n name hname
    obtain rfl := (Except.ok.inj hread).symm
    obtain rfl : n = (c :: cs).length := hlength
    exact ⟨(read?_append_iff.mp hname).1, rfl⟩
  · cases hread

/-- What ends in a character of a name has no literal going on behind it. -/
theorem Reading.stops_of_name {d : Char} (hlast : raw.getLast? = some d)
    (hd : continuesName d = true) (h : Reading raw rest l) : Stops continuesLiteral rest := by
  cases h with
  | @punctuation c _ _ h =>
      obtain rfl : c = d := by simpa using hlast
      have hnone := punctuation?_of_continuesLiteral (continuesLiteral_of_continuesName hd)
      cases hnone.symm.trans h
  | comparison spelling =>
      obtain ⟨w, c, rfl, hc, -⟩ := spelling.exists_last
      obtain rfl : c = d := by simpa using hlast
      rw [opens_of_continuesLiteral (continuesLiteral_of_continuesName hd)] at hc
      cases hc
  | @sign c _ _ h =>
      obtain rfl : c = d := by simpa using hlast
      unfold sign? at h
      split at h <;> cases h <;> cases hd
  | number _ ends => exact ends
  | constant form =>
      obtain ⟨w, rfl, -⟩ := Constant.exists_last_of_mem_forms form
      obtain rfl : ')' = d := by simpa using hlast
      cases hd
  | date _ ends => exact ends
  | escaped _ _ ends => exact ends
  | word word => exact word.ends

end Lexeme

end ResourceQuery

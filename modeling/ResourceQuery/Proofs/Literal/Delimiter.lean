/-
Delimiters.

A delimiter is a comma, a closing parenthesis, a connective or a blank.  To a recogniser
of literals it is as good as the end of the query: what is read of a text with a delimiter
behind it is what is read of the text alone, so nothing behind the delimiter is seen.
-/
import ResourceQuery.Proofs.Literal.Encoding
import ResourceQuery.Proofs.Literal.Numeral

namespace ResourceQuery

/-- A comma, a closing parenthesis, a connective or a blank. -/
def isDelimiter (c : Char) : Bool :=
  c = ',' || c = ')' || c = '&' || c = '|' || isBlank c

/-- The text is empty, or starts with a delimiter. -/
def Closed (cs : List Char) : Prop :=
  ∀ c ∈ cs.head?, isDelimiter c = true

variable {u v raw rest shape : List Char} {c d : Char}

/-- What holds of no delimiter holds only of other characters. -/
theorem isDelimiter_eq_false {p : Char → Bool}
    (hp : [',', ')', '&', '|', ' ', '\t', '\n', '\x0c', '\r'].all (fun c => !p c) = true)
    (h : p c = true) : isDelimiter c = false := by
  rw [Bool.eq_false_iff]
  intro hdelimiter
  simp only [isDelimiter, isBlank, Bool.or_eq_true, decide_eq_true_eq] at hdelimiter
  have hmem : c ∈ [',', ')', '&', '|', ' ', '\t', '\n', '\x0c', '\r'] := by
    simpa [or_assoc] using hdelimiter
  have hnot := List.all_eq_true.mp hp c hmem
  rw [h] at hnot
  cases hnot

theorem isDelimiter_of_continuesLiteral (h : continuesLiteral c = true) :
    isDelimiter c = false :=
  isDelimiter_eq_false (p := continuesLiteral) rfl h

theorem isDelimiter_of_isBlank (h : isBlank c = true) : isDelimiter c = true := by
  simp [isDelimiter, h]

theorem isBlank_of_not_isDelimiter (h : isDelimiter c = false) : isBlank c = false := by
  rw [Bool.eq_false_iff]
  intro hblank
  rw [isDelimiter_of_isBlank hblank] at h
  cases h

theorem isDelimiter_of_isLiteral (h : isLiteral c = true) : isDelimiter c = false :=
  isDelimiter_of_continuesLiteral (continuesLiteral_of_isLiteral h)

namespace Closed

theorem cons (hd : isDelimiter d = true) (q : List Char) : Closed (d :: q) := by
  intro c hc
  obtain rfl := Option.some.inj hc
  exact hd

theorem stops {p : Char → Bool} (h : Closed v) (hp : ∀ c, p c = true → isDelimiter c = false) :
    Stops p v := by
  intro c hc
  rw [Bool.eq_false_iff]
  intro hpc
  have hdelimiter := h c hc
  rw [hp c hpc] at hdelimiter
  cases hdelimiter

theorem stops_literal (h : Closed v) : Stops continuesLiteral v :=
  h.stops fun _ => isDelimiter_of_continuesLiteral

theorem head?_ne (h : Closed v) (hc : isDelimiter c = false) : v.head? ≠ some c := by
  intro hv
  rw [h c hv] at hc
  cases hc

theorem head?_append_iff (h : Closed v) (hc : isDelimiter c = false) :
    (u ++ v).head? = some c ↔ u.head? = some c := by
  cases u with
  | nil => simp [h.head?_ne hc]
  | cons d u => rfl

theorem exists_front (h : Closed v) (hraw : ∀ c ∈ raw, isDelimiter c = false)
    (htext : u ++ v = raw ++ rest) : ∃ y, u = raw ++ y ∧ rest = y ++ v := by
  refine ResourceQuery.exists_front ?_ htext
  intro c hc hmem
  exact h.head?_ne (hraw c hmem) hc

theorem stops_append_iff (h : Closed v) :
    Stops continuesLiteral (u ++ v) ↔ Stops continuesLiteral u := by
  cases u with
  | nil => exact iff_of_true h.stops_literal Stops.nil
  | cons c u => rfl

theorem endsLiteral_append (h : Closed v) : endsLiteral (u ++ v) = endsLiteral u := by
  rw [Bool.eq_iff_iff, endsLiteral_iff, endsLiteral_iff, h.stops_append_iff]

end Closed

/-! ### Numbers -/

namespace Number

theorem Numeral.not_isDelimiter (h : Numeral raw) : ∀ c ∈ raw, isDelimiter c = false := by
  intro c hc
  rcases h.isLiteral_or c hc with hliteral | rfl
  · exact isDelimiter_of_isLiteral hliteral
  · rfl

theorem read?_append_closed (hv : Closed v) : read? (u ++ v) = read? u := by
  ext ⟨n, kind⟩
  constructor
  · intro h
    obtain ⟨raw, rest, htext, rfl, numeral, ends, rfl⟩ := numeral_of_read? h
    obtain ⟨y, rfl, rfl⟩ := hv.exists_front numeral.not_isDelimiter htext
    exact read?_append numeral (hv.stops_append_iff.mp ends)
  · intro h
    obtain ⟨raw, rest, rfl, rfl, numeral, ends, rfl⟩ := numeral_of_read? h
    rw [List.append_assoc]
    exact read?_append numeral (hv.stops_append_iff.mpr ends)

theorem length_le_of_read? {n : Nat} {kind : Kind} (h : read? u = some (n, kind)) :
    n ≤ u.length := by
  obtain ⟨raw, rest, rfl, rfl, -⟩ := numeral_of_read? h
  rw [List.length_append]
  exact Nat.le_add_right _ _

end Number

/-! ### Dates -/

namespace Date

theorem length_le_of_opensWith (h : opensWith shape u = true) : shape.length ≤ u.length := by
  induction shape generalizing u with
  | nil => exact Nat.zero_le _
  | cons s shape ih =>
      cases u with
      | nil => cases h
      | cons c u =>
          rw [opensWith, Bool.and_eq_true] at h
          exact Nat.succ_le_succ (ih h.2)

theorem opensWith_append_closed (hv : Closed v)
    (hshape : shape.all (fun s => !isDelimiter s) = true) :
    opensWith shape (u ++ v) = opensWith shape u := by
  refine opensWith_append (p := fun c => !isDelimiter c) ?_ (List.all_eq_true.mp hshape) ?_
  · intro c hc
    simp [isDelimiter_of_continuesLiteral (continuesLiteral_of_isDigit hc)]
  · exact hv.stops fun c hc => by simpa using hc

theorem timeLength_le (cs : List Char) : timeLength cs ≤ cs.length := by
  have hclock : (cs.takeWhile (fun c => c.isDigit || c = ':')).length ≤ cs.length :=
    (List.takeWhile_prefix _).length_le
  simp only [timeLength]
  split
  · rename_i hzone
    -- the `Z` itself stands behind the clock
    have hne : cs.drop (cs.takeWhile (fun c => c.isDigit || c = ':')).length ≠ [] := by
      intro hnil
      rw [hnil] at hzone
      cases hzone
    exact Nat.lt_of_not_le fun hle => hne (List.drop_eq_nil_iff.mpr hle)
  · exact hclock

theorem timeLength_append_closed (hv : Closed v) : timeLength (u ++ v) = timeLength u := by
  have hstops : Stops (fun c => c.isDigit || c = ':') v := by
    refine hv.stops fun c hc => ?_
    rw [Bool.or_eq_true, decide_eq_true_eq] at hc
    rcases hc with hc | rfl
    · exact isDelimiter_of_continuesLiteral (continuesLiteral_of_isDigit hc)
    · rfl
  have hclock : (u.takeWhile (fun c => c.isDigit || c = ':')).length ≤ u.length :=
    (List.takeWhile_prefix _).length_le
  have hzone : isDelimiter 'Z' = false := rfl
  simp only [timeLength, takeWhile_append_of_stops u hstops,
    List.drop_append_of_le_length hclock, hv.head?_append_iff hzone]

theorem length_le_of_incomplete {n : Nat} (h : Date.read u = .incomplete n) : n ≤ u.length := by
  unfold Date.read at h
  split at h
  · cases h
  · split at h
    · rename_i hday
      obtain rfl := Reading.incomplete.inj h
      have hle := length_le_of_opensWith hday
      have htime := timeLength_le (u.drop dayShape.length)
      rw [List.length_drop] at htime
      omega
    · cases h

theorem read_append_closed (hv : Closed v) : Date.read (u ++ v) = Date.read u := by
  have hday : opensWith dayShape (u ++ v) = opensWith dayShape u :=
    opensWith_append_closed hv rfl
  have hshape : opensWith Date.shape (u ++ v) = opensWith Date.shape u :=
    opensWith_append_closed hv rfl
  have hends : opensWith Date.shape u = true →
      endsLiteral ((u ++ v).drop Date.shape.length) = endsLiteral (u.drop Date.shape.length) := by
    intro h
    rw [List.drop_append_of_le_length (length_le_of_opensWith h), hv.endsLiteral_append]
  have htime : opensWith dayShape u = true →
      timeLength ((u ++ v).drop dayShape.length) = timeLength (u.drop dayShape.length) := by
    intro h
    rw [List.drop_append_of_le_length (length_le_of_opensWith h), timeLength_append_closed hv]
  simp only [Date.read, hday, hshape]
  by_cases h : opensWith dayShape u = true
  · rw [htime h]
    by_cases h' : opensWith Date.shape u = true
    · rw [hends h']
    · simp [h']
  · have h' : ¬ opensWith Date.shape u = true := fun h' => h (opensWith_dayShape_of_shape h')
    simp [h, h']

end Date

/-! ### Spans -/

namespace Span

/-- A `%` with no two characters behind it opens no escape, and a delimiter is none of the
two. -/
theorem piecesOf_percent_append {timed : Bool} (hv : Closed v) (hu : u.length < 2) :
    piecesOf timed ('%' :: u ++ v) = [] := by
  cases hpieces : piecesOf timed ('%' :: u ++ v) with
  | nil => rfl
  | cons p ps =>
      rcases piecesOf_eq_cons hpieces with ⟨c, rest, -, hcs, -, hc⟩ |
        ⟨high, low, rest, -, hcs, -, hhigh, hlow⟩
      · obtain ⟨rfl, -⟩ := List.cons.inj hcs
        rcases hc with hc | ⟨-, hc, -⟩ <;> cases hc
      · have htext : u ++ v = [high, low] ++ rest := (List.cons.inj hcs).2
        have hhex : ∀ c ∈ [high, low], isDelimiter c = false := by
          simp [isDelimiter_of_isLiteral (isLiteral_of_isHexDigit hhigh),
            isDelimiter_of_isLiteral (isLiteral_of_isHexDigit hlow)]
        obtain ⟨y, rfl, -⟩ := hv.exists_front hhex htext
        simp only [List.length_append, List.length_cons] at hu
        omega

theorem piecesOf_append_closed {timed : Bool} (hv : Closed v) :
    piecesOf timed (u ++ v) = piecesOf timed u := by
  have hnil : piecesOf timed v = [] := piecesOf_eq_nil hv.stops_literal (hv.head?_ne rfl)
  fun_induction piecesOf timed u with
  | case1 => exact hnil
  | case2 high low cs hhex ih =>
      rw [Bool.and_eq_true] at hhex
      rw [List.cons_append, List.cons_append, List.cons_append, piecesOf_escape hhex.1 hhex.2, ih]
  | case3 high low cs hhex =>
      rw [List.cons_append, List.cons_append, List.cons_append, piecesOf_percent hhex]
  | case4 c cs hescape hc ih =>
      have hne : c ≠ '%' := by
        rintro rfl
        simp [isLiteral] at hc
      rw [List.cons_append, piecesOf_cons hne, digitFollows_append hnil, if_pos hc, ih]
  | case5 c cs hescape hc =>
      by_cases hpercent : c = '%'
      · subst hpercent
        refine piecesOf_percent_append hv ?_
        cases cs with
        | nil => exact Nat.zero_lt_two
        | cons high cs =>
            cases cs with
            | nil => exact Nat.one_lt_two
            | cons low cs => exact absurd rfl (hescape high low cs rfl)
      · rw [List.cons_append, piecesOf_cons hpercent, digitFollows_append hnil, if_neg hc]

theorem read_append_closed (hv : Closed v) : Span.read (u ++ v) = Span.read u := by
  rw [Span.read, Date.opensWith_append_closed hv rfl, piecesOf_append_closed hv]
  rfl

end Span

end ResourceQuery

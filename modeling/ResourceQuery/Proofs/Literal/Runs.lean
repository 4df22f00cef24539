/-
Runs of characters, and where they stop.

Every recogniser of a literal takes the longest run of some class of characters and
looks at most at what stands behind it.  `Stops p cs` says that a run of `p` stops
in front of `cs`, because `cs` is empty or starts with another character; it is what
makes a run of a given text the whole run.
-/
import ResourceQuery.Literal.Character

namespace ResourceQuery

/-- A run of characters of a class does not go on into the text. -/
def Stops (p : Char → Bool) (cs : List Char) : Prop :=
  ∀ c ∈ cs.head?, p c = false

namespace Stops

variable {p q : Char → Bool} {u v cs : List Char} {c : Char}

theorem nil : Stops p [] := by
  intro c hc
  cases hc

theorem cons_iff : Stops p (c :: cs) ↔ p c = false := by
  simp [Stops]

theorem mono (h : Stops p cs) (hpq : ∀ c, q c = true → p c = true) : Stops q cs := by
  intro c hc
  have := h c hc
  cases hq : q c with
  | false => rfl
  | true => simp [hpq c hq] at this

theorem append (hu : u ≠ []) (h : ∀ c ∈ u, p c = false) : Stops p (u ++ v) := by
  cases u with
  | nil => exact absurd rfl hu
  | cons c u => exact cons_iff.mpr (h c List.mem_cons_self)

end Stops

variable {p : Char → Bool} {u v cs : List Char}

theorem takeWhile_append_stops (hu : ∀ c ∈ u, p c = true) (hv : Stops p v) :
    (u ++ v).takeWhile p = u := by
  rw [List.takeWhile_append_of_pos hu]
  cases v with
  | nil => simp
  | cons c v => simp [Stops.cons_iff.mp hv]

theorem dropWhile_append_stops (hu : ∀ c ∈ u, p c = true) (hv : Stops p v) :
    (u ++ v).dropWhile p = v := by
  rw [List.dropWhile_append_of_pos hu]
  cases v with
  | nil => rfl
  | cons c v => simp [Stops.cons_iff.mp hv]

theorem stops_drop_takeWhile (p : Char → Bool) (cs : List Char) :
    Stops p (cs.drop (cs.takeWhile p).length) := by
  induction cs with
  | nil => exact Stops.nil
  | cons c cs ih =>
      by_cases hc : p c = true
      · simpa [hc] using ih
      · simpa [hc] using Stops.cons_iff.mpr (Bool.eq_false_iff.mpr hc)

theorem exists_run (p : Char → Bool) (cs : List Char) :
    ∃ u v, cs = u ++ v ∧ (∀ c ∈ u, p c = true) ∧ Stops p v := by
  refine ⟨cs.takeWhile p, cs.drop (cs.takeWhile p).length, ?_, fun c hc => ?_, ?_⟩
  · exact (List.prefix_iff_eq_append.mp (List.takeWhile_prefix p)).symm
  · exact List.all_eq_true.mp List.all_takeWhile c hc
  · exact stops_drop_takeWhile p cs

/-- Where a run stops, and what stands behind it, are told by the text. -/
theorem run_append_inj {u' v' : List Char} (hu : ∀ c ∈ u, p c = true) (hv : Stops p v)
    (hu' : ∀ c ∈ u', p c = true) (hv' : Stops p v') (h : u ++ v = u' ++ v') : u = u' ∧ v = v' := by
  have hrun : u = u' := by
    rw [← takeWhile_append_stops hu hv, h, takeWhile_append_stops hu' hv']
  refine ⟨hrun, ?_⟩
  rw [hrun] at h
  exact List.append_cancel_left h

theorem takeWhile_append_of_stops (u : List Char) (hv : Stops p v) :
    (u ++ v).takeWhile p = u.takeWhile p := by
  induction u with
  | nil =>
      cases v with
      | nil => rfl
      | cons c v => simp [Stops.cons_iff.mp hv]
  | cons c u ih => simp [List.takeWhile_cons, ih]

/-- What starts in front of a text and has not the character in it that the text starts
with ends in front of the text. -/
theorem exists_front {raw rest : List Char} (hv : ∀ c ∈ v.head?, c ∉ raw)
    (h : u ++ v = raw ++ rest) : ∃ y, u = raw ++ y ∧ rest = y ++ v := by
  rcases List.append_eq_append_iff.mp h with ⟨y, rfl, hy⟩ | ⟨y, rfl, hy⟩
  · cases y with
    | nil => exact ⟨[], by simp, hy.symm⟩
    | cons c y => exact absurd (List.mem_append_right u List.mem_cons_self) (hv c (hy ▸ rfl))
  · exact ⟨y, rfl, hy⟩

theorem endsLiteral_iff : endsLiteral cs = true ↔ Stops continuesLiteral cs := by
  cases cs with
  | nil => simp [endsLiteral, Stops.nil]
  | cons c cs => simp [endsLiteral, Stops.cons_iff]

/-! ### Which characters are literal -/

/-- The text ends in a character that a literal can have. -/
def EndsInLiteral (raw : List Char) : Prop :=
  ∃ d, raw.getLast? = some d ∧ isLiteral d = true

theorem isLiteral_of_isDigit {c : Char} (h : c.isDigit = true) : isLiteral c = true := by
  simp [isLiteral, Char.isAlphanum, h]

theorem isLiteral_of_continuesName {c : Char} (h : continuesName c = true) :
    isLiteral c = true := by
  simp only [continuesName, Bool.or_eq_true] at h
  rcases h with h | h <;> simp [isLiteral, h]

theorem continuesLiteral_of_isLiteral {c : Char} (h : isLiteral c = true) :
    continuesLiteral c = true := by
  simp [continuesLiteral, h]

theorem continuesLiteral_of_isDigit {c : Char} (h : c.isDigit = true) :
    continuesLiteral c = true :=
  continuesLiteral_of_isLiteral (isLiteral_of_isDigit h)

theorem continuesLiteral_of_continuesName {c : Char} (h : continuesName c = true) :
    continuesLiteral c = true :=
  continuesLiteral_of_isLiteral (isLiteral_of_continuesName h)

theorem Stops.literal (h : Stops continuesLiteral cs) : Stops isLiteral cs :=
  h.mono fun _ => continuesLiteral_of_isLiteral

theorem not_isBlank_of_continuesLiteral {c : Char} (h : continuesLiteral c = true) :
    isBlank c = false := by
  rw [Bool.eq_false_iff]
  intro hblank
  simp only [isBlank, Bool.or_eq_true, decide_eq_true_eq] at hblank
  rcases hblank with (((rfl | rfl) | rfl) | rfl) | rfl <;> cases h

end ResourceQuery

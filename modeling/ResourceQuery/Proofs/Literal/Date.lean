/-
The dates of a query, as they are written.

A date is told by its shape, character by character, so whether a text opens with
one is settled by as many characters as the shape has.  The shape of a day has no
character in it that a literal could not have; so whether a literal opens with a day
does not depend on what stands behind the literal.

What opens with a day and is no whole date breaks off.  `Opening` says what a date may be
up to where it breaks off, and the longest opening in front of a text is what is measured
of it.
-/
import ResourceQuery.Literal.Date
import ResourceQuery.Proofs.Literal.Numeral

namespace ResourceQuery.Date

/-- A date as it is written, `YYYY-MM-DDTHH:MM:SSZ`. -/
inductive Written : List Char → Prop
  | mk {y₁ y₂ y₃ y₄ m₁ m₂ d₁ d₂ h₁ h₂ i₁ i₂ s₁ s₂ : Char}
      (digits : ∀ c ∈ [y₁, y₂, y₃, y₄, m₁, m₂, d₁, d₂, h₁, h₂, i₁, i₂, s₁, s₂], c.isDigit = true) :
      Written [y₁, y₂, y₃, y₄, '-', m₁, m₂, '-', d₁, d₂, 'T', h₁, h₂, ':', i₁, i₂, ':', s₁, s₂,
        'Z']

/-- A day as it is written, and the letter that opens the time, `YYYY-MM-DDT`. -/
inductive Day : List Char → Prop
  | mk {y₁ y₂ y₃ y₄ m₁ m₂ d₁ d₂ : Char}
      (digits : ∀ c ∈ [y₁, y₂, y₃, y₄, m₁, m₂, d₁, d₂], c.isDigit = true) :
      Day [y₁, y₂, y₃, y₄, '-', m₁, m₂, '-', d₁, d₂, 'T']

/-- A date up to where it breaks off: a day, digits and colons behind it, and perhaps a
`Z`. -/
inductive Opening : List Char → Prop
  | mk {day clock zone : List Char} (day_written : Day day)
      (clock_chars : ∀ c ∈ clock, c.isDigit = true ∨ c = ':')
      (zone_written : zone = [] ∨ zone = ['Z']) : Opening (day ++ (clock ++ zone))

/-- The longest opening of a date that a text starts with. -/
structure LongestOpening (raw cs : List Char) : Prop where
  opening : Opening raw
  isPrefix : raw <+: cs
  longest : ∀ other, Opening other → other <+: cs → other.length ≤ raw.length

/-- The text starts with a whole date, and a literal can end behind it. -/
def Whole (cs : List Char) : Prop :=
  ∃ raw rest, cs = raw ++ rest ∧ Written raw ∧ Stops continuesLiteral rest

variable {shape day clock zone raw rest cs : List Char}

theorem Written.endsInLiteral (h : Written raw) : EndsInLiteral raw := by
  obtain ⟨-⟩ := h
  exact ⟨'Z', rfl, rfl⟩

theorem Written.length (h : Written raw) : raw.length = Date.shape.length := by
  cases h
  rfl

/-! ### Shapes, one character at a time -/

theorem opensWith_digit_iff :
    opensWith ('d' :: shape) cs = true ↔
      ∃ c rest, cs = c :: rest ∧ c.isDigit = true ∧ opensWith shape rest = true := by
  cases cs with
  | nil => simp [opensWith]
  | cons c cs => simp [opensWith, and_assoc]

theorem opensWith_char_iff {s : Char} (hs : s ≠ 'd') :
    opensWith (s :: shape) cs = true ↔
      ∃ rest, cs = s :: rest ∧ opensWith shape rest = true := by
  cases cs with
  | nil => simp [opensWith]
  | cons c cs => simp [opensWith, hs, and_assoc]

theorem opensWith_shape_iff :
    opensWith Date.shape cs = true ↔ ∃ raw rest, cs = raw ++ rest ∧ Written raw := by
  constructor
  · intro h
    simp only [Date.shape, dayShape, timeShape, List.cons_append, List.nil_append,
      opensWith_digit_iff, opensWith_char_iff (s := '-') (by decide),
      opensWith_char_iff (s := 'T') (by decide), opensWith_char_iff (s := ':') (by decide),
      opensWith_char_iff (s := 'Z') (by decide)] at h
    obtain ⟨y₁, _, rfl, hy₁, y₂, _, rfl, hy₂, y₃, _, rfl, hy₃, y₄, _, rfl, hy₄, _, rfl,
      m₁, _, rfl, hm₁, m₂, _, rfl, hm₂, _, rfl, d₁, _, rfl, hd₁, d₂, _, rfl, hd₂, _, rfl,
      h₁, _, rfl, hh₁, h₂, _, rfl, hh₂, _, rfl, i₁, _, rfl, hi₁, i₂, _, rfl, hi₂, _, rfl,
      s₁, _, rfl, hs₁, s₂, _, rfl, hs₂, rest, rfl, -⟩ := h
    exact ⟨_, rest, rfl, .mk (by simp [*])⟩
  · rintro ⟨raw, rest, rfl, ⟨digits⟩⟩
    simp only [List.mem_cons, List.not_mem_nil, or_false, forall_eq_or_imp, forall_eq] at digits
    simp [Date.shape, dayShape, timeShape, opensWith, digits]

/-! ### Days and what stands behind them -/

theorem Day.length (h : Day day) : day.length = dayShape.length := by
  obtain ⟨-⟩ := h
  rfl

theorem Day.opensWith (h : Day day) : Date.opensWith dayShape (day ++ rest) = true := by
  obtain ⟨digits⟩ := h
  simp only [List.mem_cons, List.not_mem_nil, or_false, forall_eq_or_imp, forall_eq] at digits
  simp [dayShape, Date.opensWith, digits]

theorem Day.isLiteral (h : Day day) : ∀ c ∈ day, isLiteral c = true := by
  obtain ⟨digits⟩ := h
  have hliteral := fun c hc => isLiteral_of_isDigit (digits c hc)
  simp only [List.mem_cons, List.not_mem_nil, or_false, forall_eq_or_imp, forall_eq]
    at hliteral
  have hminus : ResourceQuery.isLiteral '-' = true := rfl
  have hletter : ResourceQuery.isLiteral 'T' = true := rfl
  simp [hliteral, hminus, hletter]

theorem Day.exists_cons (h : Day day) : ∃ c cs, day = c :: cs ∧ c.isDigit = true := by
  obtain ⟨digits⟩ := h
  exact ⟨_, _, rfl, digits _ List.mem_cons_self⟩

theorem opensWith_dayShape_iff :
    opensWith dayShape cs = true ↔ ∃ day rest, cs = day ++ rest ∧ Day day := by
  constructor
  · intro h
    simp only [dayShape, opensWith_digit_iff, opensWith_char_iff (s := '-') (by decide),
      opensWith_char_iff (s := 'T') (by decide)] at h
    obtain ⟨y₁, _, rfl, hy₁, y₂, _, rfl, hy₂, y₃, _, rfl, hy₃, y₄, _, rfl, hy₄, _, rfl,
      m₁, _, rfl, hm₁, m₂, _, rfl, hm₂, _, rfl, d₁, _, rfl, hd₁, d₂, _, rfl, hd₂, rest, rfl, -⟩ := h
    exact ⟨_, rest, rfl, .mk (by simp [*])⟩
  · rintro ⟨day, rest, rfl, hday⟩
    exact hday.opensWith

/-- A text opens with a shape or not by what stands in front of a place where the
characters of the shape stop. -/
theorem opensWith_append {p : Char → Bool} (hdigit : ∀ c, c.isDigit = true → p c = true)
    (hshape : ∀ s ∈ shape, p s = true) (hrest : Stops p rest) :
    opensWith shape (raw ++ rest) = opensWith shape raw := by
  induction shape generalizing raw with
  | nil => rfl
  | cons s shape ih =>
      have hshape' : ∀ s ∈ shape, p s = true := fun s hs =>
        hshape s (List.mem_cons_of_mem _ hs)
      cases raw with
      | cons c raw => simp [opensWith, ih hshape']
      | nil =>
          cases rest with
          | nil => rfl
          | cons c rest =>
              have hc := Stops.cons_iff.mp hrest
              have hnodigit : c.isDigit = false := by
                rw [Bool.eq_false_iff]
                intro h
                rw [hdigit c h] at hc
                cases hc
              have hne : c ≠ s := by
                rintro rfl
                rw [hshape c List.mem_cons_self] at hc
                cases hc
              simp [opensWith, hnodigit, hne]

theorem opensWith_dayShape_append (hrest : Stops isLiteral rest) :
    opensWith dayShape (raw ++ rest) = opensWith dayShape raw :=
  opensWith_append (fun _ => isLiteral_of_isDigit) (List.all_eq_true.mp rfl) hrest

theorem Written.opensWith_dayShape (h : Written raw) :
    opensWith dayShape (raw ++ rest) = true := by
  obtain ⟨digits⟩ := h
  simp only [List.mem_cons, List.not_mem_nil, or_false, forall_eq_or_imp, forall_eq] at digits
  simp [dayShape, opensWith, digits]

/-- What opens with a day opens with a digit. -/
theorem isDigit_of_opensWith_dayShape {c : Char} (h : opensWith dayShape (c :: cs) = true) :
    c.isDigit = true := by
  obtain ⟨d, _, hd, hdigit, -⟩ := opensWith_digit_iff.mp h
  obtain ⟨rfl, -⟩ := List.cons.inj hd
  exact hdigit

/-! ### What is read -/

theorem opensWith_dayShape_of_shape (h : opensWith Date.shape cs = true) :
    opensWith dayShape cs = true := by
  obtain ⟨raw, rest, rfl, written⟩ := opensWith_shape_iff.mp h
  exact written.opensWith_dayShape

theorem read_eq_absent_iff : Date.read cs = .absent ↔ opensWith dayShape cs = false := by
  have hday := @opensWith_dayShape_of_shape cs
  unfold Date.read
  split
  · rename_i hshape
    rw [Bool.and_eq_true] at hshape
    simp [hday hshape.1]
  · split <;> simp_all

/-- What is read as a date is written as one where a literal can end. -/
theorem read_eq_complete_iff : Date.read cs = .complete ↔
    ∃ raw rest, cs = raw ++ rest ∧ Written raw ∧ Stops continuesLiteral rest := by
  have hcomplete : Date.read cs = .complete ↔
      opensWith Date.shape cs = true ∧ endsLiteral (cs.drop Date.shape.length) = true := by
    unfold Date.read
    split
    · simp_all
    · split <;> simp_all
  rw [hcomplete, opensWith_shape_iff]
  constructor
  · rintro ⟨⟨raw, rest, rfl, written⟩, hends⟩
    rw [← written.length, List.drop_left] at hends
    exact ⟨raw, rest, rfl, written, endsLiteral_iff.mp hends⟩
  · rintro ⟨raw, rest, rfl, written, hends⟩
    refine ⟨⟨raw, rest, rfl, written⟩, ?_⟩
    rw [← written.length, List.drop_left]
    exact endsLiteral_iff.mpr hends

/-! ### Where a date breaks off -/

/-- A text starts with only one longest opening. -/
theorem LongestOpening.unique {raw' : List Char} (h : LongestOpening raw cs)
    (h' : LongestOpening raw' cs) : raw = raw' := by
  have hlength : raw.length = raw'.length :=
    Nat.le_antisymm (h'.longest raw h.opening h.isPrefix) (h.longest raw' h'.opening h'.isPrefix)
  rw [List.prefix_iff_eq_take.mp h.isPrefix, List.prefix_iff_eq_take.mp h'.isPrefix, hlength]

theorem LongestOpening.isDigit {c : Char} (h : LongestOpening raw (c :: cs)) :
    c.isDigit = true := by
  obtain ⟨⟨hday, -, -⟩, ⟨after, hafter⟩, -⟩ := h
  obtain ⟨d, ds, rfl, hdigit⟩ := hday.exists_cons
  obtain ⟨rfl, -⟩ := List.cons.inj hafter
  exact hdigit

theorem timeLength_append (hclock : ∀ c ∈ clock, c.isDigit = true ∨ c = ':')
    (hrest : Stops (fun c => c.isDigit || c = ':') rest) :
    timeLength (clock ++ rest) =
      if rest.head? = some 'Z' then clock.length + 1 else clock.length := by
  have hrun : (clock ++ rest).takeWhile (fun c => c.isDigit || c = ':') = clock :=
    takeWhile_append_stops (by simpa using hclock) hrest
  simp only [timeLength, hrun, List.drop_left]

/-- No time in front of a text is longer than its measure. -/
theorem length_le_timeLength (hclock : ∀ c ∈ clock, c.isDigit = true ∨ c = ':')
    (hzone : zone = [] ∨ zone = ['Z']) :
    (clock ++ zone).length ≤ timeLength (clock ++ zone ++ rest) := by
  obtain ⟨more, rest', hrest, hmore, hstops⟩ :=
    exists_run (fun c => c.isDigit || c = ':') (zone ++ rest)
  have hchars : ∀ c ∈ clock ++ more, c.isDigit = true ∨ c = ':' := by
    intro c hc
    rcases List.mem_append.mp hc with hc | hc
    · exact hclock c hc
    · simpa using hmore c hc
  rw [List.append_assoc, hrest, ← List.append_assoc, timeLength_append hchars hstops]
  rcases hzone with rfl | rfl
  · simp only [List.append_nil, List.length_append]
    split <;> omega
  · -- the letter is no part of a clock, so it is what stands behind the run
    obtain rfl : more = [] := by
      cases more with
      | nil => rfl
      | cons c more =>
          obtain ⟨rfl, -⟩ := List.cons.inj hrest
          cases hmore 'Z' List.mem_cons_self
    rw [if_pos (by rw [← List.nil_append rest', ← hrest]; rfl)]
    simp

theorem exists_time (cs : List Char) : ∃ clock zone rest, cs = clock ++ zone ++ rest ∧
    (∀ c ∈ clock, c.isDigit = true ∨ c = ':') ∧ (zone = [] ∨ zone = ['Z']) ∧
      timeLength cs = (clock ++ zone).length := by
  obtain ⟨clock, rest, rfl, hrun, hstops⟩ := exists_run (fun c => c.isDigit || c = ':') cs
  have hclock : ∀ c ∈ clock, c.isDigit = true ∨ c = ':' := by simpa using hrun
  rw [timeLength_append hclock hstops]
  by_cases hzone : rest.head? = some 'Z'
  · obtain ⟨rest, rfl⟩ := List.head?_eq_some_iff.mp hzone
    exact ⟨clock, ['Z'], rest, by simp, hclock, .inr rfl, by simp⟩
  · exact ⟨clock, [], rest, by simp, hclock, .inl rfl, by simp [hzone]⟩

/-- What a date that breaks off is measured as is its longest opening. -/
theorem exists_longestOpening (hday : Day day) (cs : List Char) :
    ∃ raw, LongestOpening raw (day ++ cs) ∧ raw.length = dayShape.length + timeLength cs := by
  obtain ⟨clock, zone, rest, hcs, hclock, hzone, hlength⟩ := exists_time cs
  refine ⟨day ++ (clock ++ zone), ⟨.mk hday hclock hzone, ⟨rest, by simp [hcs]⟩, ?_⟩, ?_⟩
  · rintro other ⟨hday', hclock', hzone'⟩ ⟨after, hafter⟩
    rename_i day' clock' zone'
    rw [List.append_assoc] at hafter
    obtain ⟨rfl, htime⟩ := List.append_inj hafter (hday'.length.trans hday.length.symm)
    have hle : (clock' ++ zone').length ≤ timeLength (clock' ++ zone' ++ after) :=
      length_le_timeLength hclock' hzone'
    rw [htime, hlength] at hle
    simpa using hle
  · rw [List.length_append, hday.length, hlength]

theorem read_of_day (hday : Day day) (h : ¬ Whole (day ++ cs)) :
    Date.read (day ++ cs) = .incomplete (dayShape.length + timeLength cs) := by
  have hcomplete : ¬ (opensWith Date.shape (day ++ cs) &&
      endsLiteral ((day ++ cs).drop Date.shape.length)) = true := by
    intro hcomplete
    exact h (read_eq_complete_iff.mp (by rw [Date.read, if_pos hcomplete]))
  rw [Date.read, if_neg hcomplete, if_pos hday.opensWith, ← hday.length, List.drop_left]

/-- **A date breaks off behind its longest opening**, where there is no whole date. -/
theorem read_eq_incomplete_iff {n : Nat} : Date.read cs = .incomplete n ↔
    ¬ Whole cs ∧ ∃ raw, LongestOpening raw cs ∧ raw.length = n := by
  constructor
  · intro h
    have hnot : ¬ Whole cs := by
      intro hwhole
      rw [read_eq_complete_iff.mpr hwhole] at h
      cases h
    have hopens : opensWith dayShape cs = true := by
      cases hopens : opensWith dayShape cs with
      | true => rfl
      | false =>
          rw [read_eq_absent_iff.mpr hopens] at h
          cases h
    obtain ⟨day, rest, rfl, hday⟩ := opensWith_dayShape_iff.mp hopens
    obtain ⟨raw, hraw, hlength⟩ := exists_longestOpening hday rest
    rw [read_of_day hday hnot] at h
    exact ⟨hnot, raw, hraw, hlength.trans (Reading.incomplete.inj h)⟩
  · rintro ⟨hnot, raw, hraw, rfl⟩
    obtain ⟨⟨hday, -, -⟩, ⟨after, rfl⟩, -⟩ := id hraw
    rename_i day clock zone
    rw [List.append_assoc] at hnot hraw ⊢
    obtain ⟨raw', hraw', hlength⟩ := exists_longestOpening hday (clock ++ zone ++ after)
    rw [read_of_day hday hnot, hraw.unique hraw', hlength]

/-! ### No number -/

/-- What opens with a day is no number: the year runs straight into a `-`. -/
theorem read?_of_opensWith_dayShape (h : opensWith dayShape cs = true) :
    Number.read? cs = none := by
  simp only [dayShape, opensWith_digit_iff, opensWith_char_iff (s := '-') (by decide)] at h
  obtain ⟨y₁, _, rfl, hy₁, y₂, _, rfl, hy₂, y₃, _, rfl, hy₃, y₄, _, rfl, hy₄, rest, rfl, -⟩ := h
  have hsign := Number.not_sign hy₁
  have hyear : Number.unsignedLength (y₁ :: y₂ :: y₃ :: y₄ :: '-' :: rest) = 4 := by
    simp [Number.unsignedLength, Number.decimalLength, Number.digitCount, Number.fractionLength,
      Number.exponentLength, hy₁, hy₂, hy₃, hy₄]
  have hzero : Number.signLength (y₁ :: y₂ :: y₃ :: y₄ :: '-' :: rest) = 0 := by
    simpa [Number.signLength] using hsign
  simp [Number.read?, hzero, hyear, endsLiteral, continuesLiteral, isLiteral]

end ResourceQuery.Date

/-
The numbers of a query, as a grammar.

`Number.read?` measures a text part by part, each part as far as it goes, and looks
only then at whether a literal can end there.  `Numeral` says which texts are
numbers without measuring anything.  That the two agree is the point of this file:
no part, taken as far as it goes, takes what a later part would need, so the one
candidate that is measured is the only one there is.
-/
import ResourceQuery.Literal.Number
import ResourceQuery.Proofs.Literal.Runs

namespace ResourceQuery.Number

/-- One or more digits. -/
def Digits (cs : List Char) : Prop :=
  cs ≠ [] ∧ ∀ c ∈ cs, c.isDigit = true

/-- A sign, or none. -/
inductive OptionalSign : List Char → Prop
  | none : OptionalSign []
  | plus : OptionalSign ['+']
  | minus : OptionalSign ['-']

/-- Digits with an optional fraction, or a fraction alone. -/
inductive Decimal : List Char → Prop
  | whole {ds : List Char} (digits : Digits ds) : Decimal ds
  | pointed {ds fs : List Char} (digits : Digits ds) (fraction : Digits fs) :
      Decimal (ds ++ '.' :: fs)
  | fraction {fs : List Char} (fraction : Digits fs) : Decimal ('.' :: fs)

/-- An exponent, or none. -/
inductive OptionalExponent : List Char → Prop
  | none : OptionalExponent []
  | some {e : Char} {s ds : List Char} (letter : e = 'e' ∨ e = 'E') (sign : OptionalSign s)
      (digits : Digits ds) : OptionalExponent (e :: (s ++ ds))

/-- A number as it is written. -/
inductive Numeral : List Char → Prop
  | mk {s d e : List Char} (sign : OptionalSign s) (decimal : Decimal d)
      (exponent : OptionalExponent e) : Numeral (s ++ (d ++ e))

/-! ### Each part takes what is written of it -/

variable {s d e ds fs cs rest : List Char}

theorem not_sign {c : Char} (h : c.isDigit = true) :
    (decide (c = '+') || decide (c = '-')) = false := by
  have hplus : c ≠ '+' := by rintro rfl; cases h
  have hminus : c ≠ '-' := by rintro rfl; cases h
  simp [hplus, hminus]

theorem digitCount_append (hds : ∀ c ∈ ds, c.isDigit = true) (hrest : Stops Char.isDigit rest) :
    digitCount (ds ++ rest) = ds.length := by
  rw [digitCount, takeWhile_append_stops hds hrest]

theorem digitCount_of_stops (h : Stops Char.isDigit rest) : digitCount rest = 0 := by
  have hnone : ∀ c ∈ ([] : List Char), c.isDigit = true := by simp
  exact digitCount_append hnone h

theorem signLength_append (hs : OptionalSign s)
    (hrest : Stops (fun c => c = '+' || c = '-') rest) :
    signLength (s ++ rest) = s.length := by
  cases hs with
  | plus => rfl
  | minus => rfl
  | none =>
      cases rest with
      | nil => rfl
      | cons c cs =>
          have hc := Stops.cons_iff.mp hrest
          simp only [Bool.or_eq_false_iff, decide_eq_false_iff_not] at hc
          simp [signLength, hc.1, hc.2]

theorem fractionLength_pointed (hfs : Digits fs) (hrest : Stops Char.isDigit rest) :
    fractionLength ('.' :: (fs ++ rest)) = fs.length + 1 := by
  have hcount := digitCount_append hfs.2 hrest
  simp only [fractionLength, hcount]
  rw [if_pos (by simp [hfs.1])]
  omega

theorem fractionLength_of_stops (h : Stops (· = '.') rest) : fractionLength rest = 0 := by
  cases rest with
  | nil => rfl
  | cons c cs =>
      have hc : c ≠ '.' := by simpa using Stops.cons_iff.mp h
      simp [fractionLength, hc]

theorem decimalLength_append (hd : Decimal d)
    (hrest : Stops (fun c => c.isDigit || c = '.') rest) :
    decimalLength (d ++ rest) = d.length := by
  have hdigit : Stops Char.isDigit rest := hrest.mono (by simp_all)
  have hpoint : Stops (· = '.') rest := hrest.mono (by simp_all)
  cases hd with
  | whole digits =>
      rw [decimalLength, digitCount_append digits.2 hdigit, List.drop_left,
        fractionLength_of_stops hpoint, Nat.add_zero]
  | @pointed ds fs digits fraction =>
      have hstop : Stops Char.isDigit ('.' :: (fs ++ rest)) := Stops.cons_iff.mpr rfl
      rw [List.append_assoc, List.cons_append, decimalLength, digitCount_append digits.2 hstop,
        List.drop_left, fractionLength_pointed fraction hdigit]
      simp
  | @fraction fs fraction =>
      have hstop : Stops Char.isDigit ('.' :: (fs ++ rest)) := Stops.cons_iff.mpr rfl
      rw [List.cons_append, decimalLength, digitCount_of_stops hstop, List.drop_zero,
        fractionLength_pointed fraction hdigit]
      simp

theorem exponentLength_append (he : OptionalExponent e)
    (hrest : Stops (fun c => c.isDigit || c = 'e' || c = 'E') rest) :
    exponentLength (e ++ rest) = e.length := by
  cases he with
  | none =>
      cases rest with
      | nil => rfl
      | cons c cs =>
          have hc := Stops.cons_iff.mp hrest
          simp only [Bool.or_eq_false_iff, decide_eq_false_iff_not] at hc
          simp [exponentLength, hc.1.2, hc.2]
  | @some c s ds letter sign digits =>
      have hsign : signLength (s ++ (ds ++ rest)) = s.length :=
        signLength_append sign (Stops.append digits.1 fun c hc => not_sign (digits.2 c hc))
      have hcount : digitCount (ds ++ rest) = ds.length :=
        digitCount_append digits.2 (hrest.mono (by simp_all))
      rw [List.cons_append, List.append_assoc, exponentLength]
      simp only [hsign, List.drop_left, hcount]
      rw [if_pos (by simp [letter, digits.1])]
      simp only [List.length_cons, List.length_append]
      omega

/-- The head of a decimal is no sign. -/
theorem Decimal.stops_sign (hd : Decimal d) :
    Stops (fun c => c = '+' || c = '-') (d ++ rest) := by
  cases hd with
  | whole digits => exact Stops.append digits.1 fun c hc => not_sign (digits.2 c hc)
  | pointed digits _ =>
      rw [List.append_assoc]
      exact Stops.append digits.1 fun c hc => not_sign (digits.2 c hc)
  | fraction => exact Stops.cons_iff.mpr rfl

theorem Decimal.length_pos (hd : Decimal d) : 0 < d.length := by
  cases hd with
  | whole digits => exact List.length_pos_iff.mpr digits.1
  | pointed => simp only [List.length_append, List.length_cons]; omega
  | fraction => simp

theorem OptionalExponent.stops_decimal (he : OptionalExponent e)
    (hrest : Stops (fun c => c.isDigit || c = '.') rest) :
    Stops (fun c => c.isDigit || c = '.') (e ++ rest) := by
  cases he with
  | none => exact hrest
  | some letter => rcases letter with rfl | rfl <;> exact Stops.cons_iff.mpr rfl

theorem signLength_numeral (hs : OptionalSign s) (hd : Decimal d) :
    signLength (s ++ (d ++ rest)) = s.length :=
  signLength_append hs hd.stops_sign

theorem continues_of_decimal (c : Char) (h : (c.isDigit || decide (c = '.')) = true) :
    continuesLiteral c = true := by
  simp only [Bool.or_eq_true, decide_eq_true_eq] at h
  rcases h with h | rfl
  · exact continuesLiteral_of_isDigit h
  · rfl

theorem continues_of_exponent (c : Char)
    (h : (c.isDigit || decide (c = 'e') || decide (c = 'E')) = true) :
    continuesLiteral c = true := by
  simp only [Bool.or_eq_true, decide_eq_true_eq] at h
  rcases h with (h | rfl) | rfl
  · exact continuesLiteral_of_isDigit h
  · rfl
  · rfl

theorem unsignedLength_append (hd : Decimal d) (he : OptionalExponent e)
    (hrest : Stops continuesLiteral rest) :
    unsignedLength (d ++ (e ++ rest)) = d.length + e.length := by
  have hdecimal : decimalLength (d ++ (e ++ rest)) = d.length :=
    decimalLength_append hd (he.stops_decimal (hrest.mono continues_of_decimal))
  have hexponent : exponentLength (e ++ rest) = e.length :=
    exponentLength_append he (hrest.mono continues_of_exponent)
  have hpos := hd.length_pos
  rw [unsignedLength, hdecimal, if_neg (by omega), List.drop_left, hexponent]

/-- A number where a literal can end is read whole. -/
theorem read?_append {raw : List Char} (h : Numeral raw) (hrest : Stops continuesLiteral rest) :
    read? (raw ++ rest) = some (raw.length, kind raw) := by
  obtain ⟨sign, decimal, exponent⟩ := h
  rename_i s d e
  have hsign : signLength (s ++ (d ++ (e ++ rest))) = s.length :=
    signLength_numeral sign decimal
  have hunsigned := unsignedLength_append decimal exponent hrest
  have hpos := decimal.length_pos
  have hlength : s.length + (d.length + e.length) = (s ++ (d ++ e)).length := by simp
  have htext : s ++ (d ++ (e ++ rest)) = (s ++ (d ++ e)) ++ rest := by simp
  simp only [read?, List.append_assoc, hsign, List.drop_left, hunsigned]
  rw [hlength, htext, List.drop_left, List.take_left, if_pos]
  simp only [ne_eq, Bool.and_eq_true, decide_eq_true_eq]
  exact ⟨by omega, endsLiteral_iff.mpr hrest⟩

/-! ### Each part that is measured is written -/

theorem optionalSign_take (cs : List Char) : OptionalSign (cs.take (signLength cs)) := by
  cases cs with
  | nil => exact .none
  | cons c cs =>
      by_cases hplus : c = '+'
      · subst hplus; exact .plus
      · by_cases hminus : c = '-'
        · subst hminus; exact .minus
        · simpa [signLength, hplus, hminus] using OptionalSign.none

theorem digits_take (h : digitCount cs ≠ 0) : Digits (cs.take (digitCount cs)) := by
  have htake : cs.take (digitCount cs) = cs.takeWhile Char.isDigit :=
    (List.prefix_iff_eq_take.mp (List.takeWhile_prefix _)).symm
  rw [htake]
  refine ⟨List.length_pos_iff.mp (Nat.pos_of_ne_zero h), fun c hc => ?_⟩
  exact List.all_eq_true.mp List.all_takeWhile c hc

theorem decimal_take (h : decimalLength cs ≠ 0) : Decimal (cs.take (decimalLength cs)) := by
  rw [decimalLength] at h ⊢
  rw [List.take_add]
  cases hrest : cs.drop (digitCount cs) with
  | nil =>
      rw [hrest] at h
      simpa using Decimal.whole (digits_take h)
  | cons c fs =>
      rw [hrest] at h
      by_cases hpoint : c = '.' ∧ digitCount fs ≠ 0
      · obtain ⟨rfl, hfs⟩ := hpoint
        have hfraction : fractionLength ('.' :: fs) = digitCount fs + 1 := by
          simp [fractionLength, hfs, Nat.add_comm]
        rw [hfraction, List.take_succ_cons]
        by_cases hds : digitCount cs = 0
        · simpa [hds] using Decimal.fraction (digits_take hfs)
        · exact .pointed (digits_take hds) (digits_take hfs)
      · have hfraction : fractionLength (c :: fs) = 0 := by
          simp only [fractionLength]
          rw [if_neg (by simpa using hpoint)]
        rw [hfraction] at h ⊢
        simpa using Decimal.whole (digits_take h)

theorem optionalExponent_take (cs : List Char) :
    OptionalExponent (cs.take (exponentLength cs)) := by
  cases cs with
  | nil => exact .none
  | cons c cs =>
      by_cases hexp : (c = 'e' ∨ c = 'E') ∧ digitCount (cs.drop (signLength cs)) ≠ 0
      · have hlength : exponentLength (c :: cs)
            = signLength cs + digitCount (cs.drop (signLength cs)) + 1 := by
          simp only [exponentLength]
          rw [if_pos (by simpa using hexp)]
          omega
        rw [hlength, List.take_succ_cons, List.take_add]
        exact .some hexp.1 (optionalSign_take cs) (digits_take hexp.2)
      · have hlength : exponentLength (c :: cs) = 0 := by
          simp only [exponentLength]
          rw [if_neg (by simpa using hexp)]
        rw [hlength]
        exact .none

/-! ### The measured candidate is the only one -/

theorem signLength_le (cs : List Char) : signLength cs ≤ cs.length := by
  cases cs with
  | nil => exact Nat.le_refl _
  | cons c cs =>
      simp only [signLength, List.length_cons]
      split <;> omega

theorem digitCount_le (cs : List Char) : digitCount cs ≤ cs.length :=
  (List.takeWhile_prefix _).length_le

theorem decimalLength_le (cs : List Char) : decimalLength cs ≤ cs.length := by
  have hfraction : ∀ fs : List Char, fractionLength fs ≤ fs.length := by
    intro fs
    cases fs with
    | nil => exact Nat.le_refl _
    | cons c fs =>
        have := digitCount_le fs
        simp only [fractionLength, List.length_cons]
        split <;> omega
  have hdigits := digitCount_le cs
  have hrest := hfraction (cs.drop (digitCount cs))
  rw [List.length_drop] at hrest
  rw [decimalLength]
  omega

theorem exponentLength_le (cs : List Char) : exponentLength cs ≤ cs.length := by
  cases cs with
  | nil => exact Nat.le_refl _
  | cons c cs =>
      have hsign := signLength_le cs
      have hdigits := digitCount_le (cs.drop (signLength cs))
      rw [List.length_drop] at hdigits
      simp only [exponentLength, List.length_cons]
      split <;> omega

theorem numeral_take (h : unsignedLength (cs.drop (signLength cs)) ≠ 0) :
    Numeral (cs.take (signLength cs + unsignedLength (cs.drop (signLength cs)))) := by
  have hdecimal : decimalLength (cs.drop (signLength cs)) ≠ 0 := by
    intro hzero
    simp [unsignedLength, hzero] at h
  rw [List.take_add, unsignedLength, if_neg hdecimal, List.take_add]
  exact .mk (optionalSign_take cs) (decimal_take hdecimal) (optionalExponent_take _)

theorem length_le (cs : List Char) :
    signLength cs + unsignedLength (cs.drop (signLength cs)) ≤ cs.length := by
  have hsign := signLength_le cs
  have hdecimal := decimalLength_le (cs.drop (signLength cs))
  have hexponent := exponentLength_le
    ((cs.drop (signLength cs)).drop (decimalLength (cs.drop (signLength cs))))
  rw [List.length_drop, List.length_drop] at hexponent
  rw [List.length_drop] at hdecimal
  rw [unsignedLength]
  split <;> omega

/-- What is read as a number is a numeral where a literal can end. -/
theorem numeral_of_read? {n : Nat} {k : Kind} (h : read? cs = some (n, k)) :
    ∃ raw rest, cs = raw ++ rest ∧ n = raw.length ∧ Numeral raw ∧
      Stops continuesLiteral rest ∧ k = kind raw := by
  simp only [read?] at h
  split at h
  · rename_i hcond
    simp only [ne_eq, Bool.and_eq_true, decide_eq_true_eq] at hcond
    simp only [Option.some.injEq, Prod.mk.injEq] at h
    obtain ⟨rfl, rfl⟩ := h
    refine ⟨_, _, (List.take_append_drop _ cs).symm, ?_, numeral_take hcond.1,
      endsLiteral_iff.mp hcond.2, rfl⟩
    rw [List.length_take, Nat.min_eq_left (length_le cs)]
  · cases h

/-- **A number is read exactly where a numeral stands that a literal can end behind.** -/
theorem read?_eq_some_iff_numeral {n : Nat} {k : Kind} :
    read? cs = some (n, k) ↔
      ∃ raw rest, cs = raw ++ rest ∧ n = raw.length ∧ Numeral raw ∧
        Stops continuesLiteral rest ∧ k = kind raw := by
  constructor
  · exact numeral_of_read?
  · rintro ⟨raw, rest, rfl, rfl, hraw, hrest, rfl⟩
    exact read?_append hraw hrest

/-! ### The characters of a number -/

theorem isLiteral_of_decimal (hd : Decimal d) : ∀ c ∈ d, isLiteral c = true := by
  have hdigits : ∀ {ds : List Char}, Digits ds → ∀ c ∈ ds, isLiteral c = true :=
    fun hds c hc => isLiteral_of_isDigit (hds.2 c hc)
  intro c hc
  cases hd with
  | whole digits => exact hdigits digits c hc
  | pointed digits fraction =>
      rcases List.mem_append.mp hc with hc | hc
      · exact hdigits digits c hc
      · rcases List.mem_cons.mp hc with rfl | hc
        · rfl
        · exact hdigits fraction c hc
  | fraction fraction =>
      rcases List.mem_cons.mp hc with rfl | hc
      · rfl
      · exact hdigits fraction c hc

theorem isLiteral_or_of_sign (hs : OptionalSign s) : ∀ c ∈ s, isLiteral c = true ∨ c = '+' := by
  intro c hc
  cases hs with
  | none => cases hc
  | plus => exact .inr (List.mem_singleton.mp hc)
  | minus => exact .inl (List.mem_singleton.mp hc ▸ rfl)

/-- A number is written in literal characters, but for the sign `+`. -/
theorem Numeral.isLiteral_or {raw : List Char} (h : Numeral raw) :
    ∀ c ∈ raw, isLiteral c = true ∨ c = '+' := by
  obtain ⟨sign, decimal, exponent⟩ := h
  intro c hc
  rw [List.mem_append, List.mem_append] at hc
  rcases hc with hc | hc | hc
  · exact isLiteral_or_of_sign sign c hc
  · exact .inl (isLiteral_of_decimal decimal c hc)
  · cases exponent with
    | none => cases hc
    | some letter sign digits =>
        rw [List.mem_cons, List.mem_append] at hc
        rcases hc with rfl | hc | hc
        · rcases letter with rfl | rfl <;> exact .inl rfl
        · exact isLiteral_or_of_sign sign c hc
        · exact .inl (isLiteral_of_isDigit (digits.2 c hc))

/-- Where a number stands that a literal can end behind, its literal characters up to
a `+` are a run that ends as a literal does. -/
theorem Numeral.exists_literals {raw : List Char} (h : Numeral raw)
    (hrest : Stops continuesLiteral rest) :
    ∃ u v, raw ++ rest = u ++ v ∧ (∀ c ∈ u, isLiteral c = true) ∧ Stops continuesLiteral v := by
  obtain ⟨u, v, rfl, hu, hv⟩ := exists_run isLiteral raw
  refine ⟨u, v ++ rest, List.append_assoc u v rest, hu, ?_⟩
  cases v with
  | nil => exact hrest
  | cons c v =>
      have hc := Stops.cons_iff.mp hv
      rcases h.isLiteral_or c (List.mem_append_right u List.mem_cons_self) with hlit | rfl
      · rw [hc] at hlit
        cases hlit
      · exact Stops.cons_iff.mpr rfl

theorem Numeral.ne_nil {raw : List Char} (h : Numeral raw) : raw ≠ [] := by
  obtain ⟨-, decimal, -⟩ := h
  have := decimal.length_pos
  simp [List.length_pos_iff.mp this]

/-- The first character of a number is a sign, a digit or a point. -/
theorem Numeral.head {raw : List Char} {c : Char} (h : Numeral (c :: raw)) :
    c = '+' ∨ c = '-' ∨ c = '.' ∨ c.isDigit = true := by
  generalize htext : c :: raw = text at h
  obtain ⟨sign, decimal, -⟩ := h
  cases sign with
  | plus => exact .inl (List.cons.inj htext).1
  | minus => exact .inr (.inl (List.cons.inj htext).1)
  | none =>
      have hdigits : ∀ {ds rest : List Char}, Digits ds → c :: raw = ds ++ rest →
          c.isDigit = true := by
        intro ds rest hds hcs
        obtain ⟨d, ds, rfl⟩ := List.exists_cons_of_ne_nil hds.1
        obtain ⟨rfl, -⟩ := List.cons.inj hcs
        exact hds.2 c List.mem_cons_self
      cases decimal with
      | whole digits => exact .inr (.inr (.inr (hdigits digits htext)))
      | pointed digits =>
          rw [List.nil_append, List.append_assoc] at htext
          exact .inr (.inr (.inr (hdigits digits htext)))
      | fraction => exact .inr (.inr (.inl (List.cons.inj htext).1))

/-- A text that starts with neither a sign nor a point nor a digit starts with no number. -/
theorem read?_eq_none_of_head {c : Char} (hplus : c ≠ '+') (hminus : c ≠ '-') (hpoint : c ≠ '.')
    (hdigit : c.isDigit = false) : read? (c :: cs) = none := by
  rw [Option.eq_none_iff_forall_ne_some]
  rintro ⟨n, kind⟩ hread
  obtain ⟨raw, rest, htext, -, numeral, -⟩ := numeral_of_read? hread
  obtain ⟨d, ds, rfl⟩ := List.exists_cons_of_ne_nil numeral.ne_nil
  obtain ⟨rfl, -⟩ := List.cons.inj htext
  rcases numeral.head with hc | hc | hc | hc
  · exact hplus hc
  · exact hminus hc
  · exact hpoint hc
  · rw [hc] at hdigit
    cases hdigit

/-! ### Integers and other numbers -/

theorem OptionalSign.not_fractional (h : OptionalSign s) :
    ∀ c ∈ s, ¬ ((c = '.' ∨ c = 'e') ∨ c = 'E') := by
  cases h <;> simp

theorem Digits.not_fractional (h : Digits ds) :
    ∀ c ∈ ds, ¬ ((c = '.' ∨ c = 'e') ∨ c = 'E') := by
  intro c hc hfractional
  have hdigit := h.2 c hc
  rcases hfractional with (rfl | rfl) | rfl <;> cases hdigit

theorem Decimal.point_of_fractional {c : Char} (h : Decimal d) (hc : c ∈ d)
    (hfractional : (c = '.' ∨ c = 'e') ∨ c = 'E') : c = '.' := by
  have hdigits : ∀ {ds : List Char}, Digits ds → c ∉ ds :=
    fun hds hmem => hds.not_fractional c hmem hfractional
  cases h with
  | whole digits => exact absurd hc (hdigits digits)
  | pointed digits fraction =>
      rcases List.mem_append.mp hc with hc | hc
      · exact absurd hc (hdigits digits)
      · rcases List.mem_cons.mp hc with rfl | hc
        · rfl
        · exact absurd hc (hdigits fraction)
  | fraction fraction =>
      rcases List.mem_cons.mp hc with rfl | hc
      · rfl
      · exact absurd hc (hdigits fraction)

/-- A decimal without a point is digits. -/
theorem Decimal.digits_iff (h : Decimal d) : Digits d ↔ '.' ∉ d := by
  constructor
  · intro hdigits hpoint
    exact hdigits.not_fractional '.' hpoint (.inl (.inl rfl))
  · intro hpoint
    cases h with
    | whole digits => exact digits
    | pointed => exact absurd (by simp) hpoint
    | fraction => exact absurd (by simp) hpoint

/-- A number with a fraction, an exponent or both is no integer, and any other is one. -/
theorem kind_numeral (sign : OptionalSign s) (decimal : Decimal d) (exponent : OptionalExponent e) :
    kind (s ++ (d ++ e)) = if '.' ∈ d ∨ e ≠ [] then .float else .integer := by
  have hiff : (s ++ (d ++ e)).any (fun c => c = '.' || c = 'e' || c = 'E') = true ↔
      '.' ∈ d ∨ e ≠ [] := by
    simp only [List.any_eq_true, Bool.or_eq_true, decide_eq_true_eq]
    constructor
    · rintro ⟨c, hmem, hc⟩
      rw [List.mem_append, List.mem_append] at hmem
      rcases hmem with hmem | hmem | hmem
      · exact absurd hc (sign.not_fractional c hmem)
      · exact .inl (decimal.point_of_fractional hmem hc ▸ hmem)
      · exact .inr (List.ne_nil_of_mem hmem)
    · rintro (hpoint | hexponent)
      · exact ⟨'.', List.mem_append_right s (List.mem_append_left e hpoint), .inl (.inl rfl)⟩
      · cases exponent with
        | none => exact absurd rfl hexponent
        | some letter =>
            refine ⟨_, List.mem_append_right s (List.mem_append_right d List.mem_cons_self), ?_⟩
            rcases letter with rfl | rfl
            · exact .inl (.inr rfl)
            · exact .inr rfl
  simp only [kind, hiff]

/-! ### The last character of a number -/

theorem Digits.getLast? {ds : List Char} (h : Digits ds) (front : List Char) :
    ∃ d, (front ++ ds).getLast? = some d ∧ d.isDigit = true := by
  refine ⟨ds.getLast h.1, ?_, h.2 _ (List.getLast_mem h.1)⟩
  rw [List.getLast?_append, List.getLast?_eq_some_getLast h.1, Option.some_or]

/-- A number ends in a digit. -/
theorem Numeral.getLast? {raw : List Char} (h : Numeral raw) :
    ∃ d, raw.getLast? = some d ∧ d.isDigit = true := by
  obtain ⟨-, decimal, exponent⟩ := h
  rename_i s d e
  cases exponent with
  | @some c sign ds _ _ digits =>
      have htext : s ++ (d ++ c :: (sign ++ ds)) = (s ++ d ++ c :: sign) ++ ds := by simp
      exact htext ▸ digits.getLast? _
  | none =>
      cases decimal with
      | whole digits => exact (List.append_nil d).symm ▸ digits.getLast? s
      | @pointed ds fs _ fraction =>
          have htext : s ++ (ds ++ '.' :: fs ++ []) = (s ++ ds ++ ['.']) ++ fs := by simp
          exact htext ▸ fraction.getLast? _
      | @fraction fs fraction =>
          have htext : s ++ ('.' :: fs ++ []) = (s ++ ['.']) ++ fs := by simp
          exact htext ▸ fraction.getLast? _

end ResourceQuery.Number

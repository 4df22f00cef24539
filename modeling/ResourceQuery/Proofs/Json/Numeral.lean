/-
The numerals of a JSON text that stand for a position.

A position is an integer that 64 bits hold without a sign.  A numeral with a minus, a
fraction or an exponent is another number even where it is whole and not negative, so only
digits stand for a position, and these only as far as 64 bits reach.
-/
import ResourceQuery.Proofs.Json.Scalar

namespace ResourceQuery.Json

variable {text cs ds rest : List Char} {numeral : Numeral} {j : Json} {n : Nat}

theorem index?_eq_some_iff : j.index? = some n ↔ j = .integer n ∧ n < wordLimit := by
  cases j with
  | integer i =>
      simp only [index?, Option.ite_none_right_eq_some, Bool.and_eq_true, decide_eq_true_eq,
        Option.some.injEq, Json.integer.injEq]
      omega
  | _ => simp [index?]

namespace Numeral

theorem digits_of_readWhole? (h : readWhole? cs = some (ds, rest)) :
    digits cs = (ds, rest) := by
  unfold readWhole? at h
  split at h
  · cases h
  · cases h
  · rename_i hdigits
    rw [hdigits, Option.some.inj h]

theorem readFraction?_eq_nil (h : readFraction? cs = some ([], rest)) : cs = rest := by
  unfold readFraction? at h
  split at h
  · split at h
    · cases h
    · simp_all
  · obtain ⟨-, rfl⟩ := Prod.mk.inj (Option.some.inj h)
    rfl

theorem readExponent?_eq_none (h : readExponent? cs = some (none, rest)) : cs = rest := by
  unfold readExponent? at h
  split at h
  · split at h
    · dsimp only at h
      split at h
      · cases h
      · cases h
    · obtain ⟨-, rfl⟩ := Prod.mk.inj (Option.some.inj h)
      rfl
  · obtain ⟨-, rfl⟩ := Prod.mk.inj (Option.some.inj h)
    rfl

/-- A numeral without minus, fraction and exponent is its digits. -/
theorem eq_whole_of_read? (h : read? text = some (numeral, rest))
    (hinteger : numeral.isInteger = true) (hnegative : numeral.negative = false) :
    text = numeral.whole ++ rest ∧ ∀ c ∈ numeral.whole, c.isDigit = true := by
  simp only [read?, Option.bind_eq_bind, Option.bind_eq_some_iff, Prod.exists,
    Option.some.injEq, Prod.mk.injEq] at h
  obtain ⟨whole, behind, hwhole, fraction, behind', hfraction, exponent, behind'', hexponent,
    rfl, rfl⟩ := h
  by_cases hminus : text.head? = some '-'
  · simp [hminus] at hnegative
  · rw [if_neg hminus] at hwhole
    simp only [Bool.and_eq_true, List.isEmpty_iff, Option.isNone_iff_eq_none] at hinteger
    obtain ⟨rfl, rfl⟩ := hinteger
    obtain rfl := readFraction?_eq_nil hfraction
    obtain rfl := readExponent?_eq_none hexponent
    obtain ⟨rfl, rfl⟩ := Prod.mk.inj (digits_of_readWhole? hwhole)
    exact ⟨List.takeWhile_append_dropWhile.symm, List.all_eq_true.mp List.all_takeWhile⟩

/-- The numeral of digits has neither minus nor fraction nor exponent. -/
theorem read?_of_digits (hdigits : ∀ c ∈ text, c.isDigit = true)
    (h : read? text = some (numeral, rest)) :
    numeral.isInteger = true ∧ numeral.negative = false := by
  have hminus : text.head? ≠ some '-' := by
    intro hminus
    cases hdigits '-' (List.mem_of_mem_head? hminus)
  simp only [read?, if_neg hminus, Option.bind_eq_bind, Option.bind_eq_some_iff, Prod.exists,
    Option.some.injEq, Prod.mk.injEq] at h
  obtain ⟨whole, behind, hwhole, fraction, behind', hfraction, exponent, behind'', hexponent,
    rfl, rfl⟩ := h
  have hbehind : behind = [] := by
    have hall : digits text = (text, []) := by
      simpa using digits_append hdigits Stops.nil
    exact congrArg Prod.snd ((digits_of_readWhole? hwhole).symm.trans hall)
  subst hbehind
  obtain ⟨rfl, rfl⟩ : [] = fraction ∧ [] = behind' := by simpa [readFraction?] using hfraction
  obtain ⟨rfl, rfl⟩ : none = exponent ∧ [] = behind'' := by simpa [readExponent?] using hexponent
  exact ⟨rfl, rfl⟩

theorem integer?_eq_some_iff : numeral.integer? = some (n : Int) ↔ numeral.isInteger = true ∧
    numeral.negative = false ∧ digitsValue numeral.whole = n ∧ n < wordLimit := by
  cases hinteger : numeral.isInteger <;> cases hnegative : numeral.negative
  · simp [integer?, hinteger]
  · simp [integer?, hinteger]
  · simp only [integer?, hinteger, hnegative, Bool.not_true, Bool.false_eq_true, if_false,
      Option.ite_none_right_eq_some, Option.some.injEq, true_and]
    omega
  · simp only [integer?, hinteger, hnegative, Bool.not_true, Bool.false_eq_true, if_false, if_true,
      Option.ite_none_right_eq_some, Option.some.injEq, Bool.and_eq_true, decide_eq_true_eq,
      Bool.true_eq_false, false_and, and_false, iff_false]
    omega

theorem value?_eq_integer_iff {i : Int} :
    numeral.value? = some (.integer i) ↔ numeral.integer? = some i := by
  unfold value?
  cases hinteger : numeral.integer? <;> simp

/-- **The numerals that stand for a position** are digits, of a value that 64 bits hold. -/
theorem index?_value?_iff (hread : read? text = some (numeral, []))
    (hvalue : numeral.value? = some j) :
    j.index? = some n ↔
      (∀ c ∈ text, c.isDigit = true) ∧ digitsValue text = n ∧ n < wordLimit := by
  rw [index?_eq_some_iff]
  constructor
  · rintro ⟨rfl, -⟩
    obtain ⟨hinteger, hnegative, hn, hlimit⟩ :=
      integer?_eq_some_iff.mp (value?_eq_integer_iff.mp hvalue)
    obtain ⟨htext, hdigits⟩ := eq_whole_of_read? hread hinteger hnegative
    rw [List.append_nil] at htext
    exact ⟨htext ▸ hdigits, htext ▸ hn, hlimit⟩
  · rintro ⟨hdigits, hn, hlimit⟩
    obtain ⟨hinteger, hnegative⟩ := read?_of_digits hdigits hread
    obtain ⟨htext, -⟩ := eq_whole_of_read? hread hinteger hnegative
    rw [List.append_nil] at htext
    have hvalue' := value?_eq_integer_iff.mpr
      (integer?_eq_some_iff.mpr ⟨hinteger, hnegative, htext ▸ hn, hlimit⟩)
    exact ⟨Option.some.inj (hvalue.symm.trans hvalue'), hlimit⟩

end Numeral

end ResourceQuery.Json

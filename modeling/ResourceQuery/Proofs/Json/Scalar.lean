/-
Strings and integers of a JSON text are read back as they were printed.

A string is read character by character, and what a character is printed as is taken as a
whole and stands for that character alone (`readString?_printChar`).  An integer is printed
as digits without a leading zero, so its numeral is the whole run of digits, provided that
nothing stands behind it that would go on with a numeral; and it is read as an integer, and
not in floating point, as far as 64 bits hold it.
-/
import ResourceQuery.Json.Printer
import ResourceQuery.Json.Reader
import ResourceQuery.Proofs.Literal.Runs

namespace ResourceQuery.Json

variable {cs ds rest : List Char} {c : Char}

/-! ### Strings -/

theorem readString?_named {d : Char} (hd : d ≠ 'u') (hnamed : namedEscape? d = some c)
    (h : readString? cs = some (ds, rest)) :
    readString? ('\\' :: d :: cs) = some (c :: ds, rest) := by
  rw [readString?]
  · simp [hnamed, h]
  · rintro a b c d rest rfl
    exact absurd rfl hd

theorem hexUnit?_controlEscape : ∀ n < 0x20,
    hexUnit? '0' '0' (Nat.digitChar (n / 16)) (Nat.digitChar (n % 16)) = some n := by
  decide

theorem readString?_controlEscape (hc : c.toNat < 0x20) (h : readString? cs = some (ds, rest)) :
    readString? (controlEscape c ++ cs) = some (c :: ds, rest) := by
  have hhigh : isHighSurrogate c.toNat = false := by
    simp only [isHighSurrogate, Bool.and_eq_false_iff, decide_eq_false_iff_not]
    omega
  have hlow : isLowSurrogate c.toNat = false := by
    simp only [isLowSurrogate, Bool.and_eq_false_iff, decide_eq_false_iff_not]
    omega
  simp [controlEscape, readString?, hexUnit?_controlEscape _ hc, hhigh, hlow, Char.ofNat_toNat, h]

theorem readString?_raw (hquote : c ≠ '"') (hslash : c ≠ '\\') (hc : ¬ c.toNat < 0x20)
    (h : readString? cs = some (ds, rest)) : readString? (c :: cs) = some (c :: ds, rest) := by
  rw [readString?]
  · simp [hslash, hc, h]
  · exact hquote
  · intro a b d e rest hcons
    exact absurd hcons hslash
  · intro d rest hcons
    exact absurd hcons hslash

/-- What a character is printed as is read as that character. -/
theorem readString?_printChar (c : Char) (h : readString? cs = some (ds, rest)) :
    readString? (printChar c ++ cs) = some (c :: ds, rest) := by
  unfold printChar
  split
  · subst_vars
    exact readString?_named (by decide) rfl h
  split
  · subst_vars
    exact readString?_named (by decide) rfl h
  split
  · subst_vars
    exact readString?_named (by decide) rfl h
  split
  · subst_vars
    exact readString?_named (by decide) rfl h
  split
  · subst_vars
    exact readString?_named (by decide) rfl h
  split
  · subst_vars
    exact readString?_named (by decide) rfl h
  split
  · subst_vars
    exact readString?_named (by decide) rfl h
  split
  · rename_i hc
    exact readString?_controlEscape hc h
  · exact readString?_raw ‹_› ‹_› ‹_› h

/-- A string is read up to its closing quote. -/
theorem readString?_encoded (s rest : List Char) :
    readString? (s.flatMap printChar ++ '"' :: rest) = some (s, rest) := by
  induction s with
  | nil => rfl
  | cons c s ih =>
      rw [List.flatMap_cons, List.append_assoc]
      exact readString?_printChar c ih

/-! ### Integers -/

/-- Characters that go on with a numeral behind its digits. -/
def continuesNumeral (c : Char) : Bool :=
  c.isDigit || c = '.' || c = 'e' || c = 'E'

/-- An integer that 64 bits hold, with a sign or without. -/
def IsWord (n : Int) : Prop :=
  -(signedLimit : Int) ≤ n ∧ n < wordLimit

theorem isDigit_of_mem_toDigits {n : Nat} : ∀ c ∈ Nat.toDigits 10 n, c.isDigit = true :=
  fun _ => Nat.isDigit_of_mem_toDigits (by decide) (by decide)

/-- Only zero is written with a zero in front. -/
theorem toDigits_ne_zero_cons {n : Nat} (hn : n ≠ 0) : (Nat.toDigits 10 n).head? ≠ some '0' := by
  induction n using Nat.strongRecOn with
  | ind n ih =>
      by_cases hlt : n < 10
      · simpa [Nat.toDigits_of_lt_base hlt] using hn
      · have hfront := ih (n / 10) (by omega) (by omega)
        rw [Nat.toDigits_of_base_le (by decide) (Nat.le_of_not_lt hlt), List.head?_append]
        obtain ⟨d, ds, hds⟩ := List.exists_cons_of_ne_nil (@Nat.toDigits_ne_nil (n / 10) 10)
        rw [hds] at hfront ⊢
        exact hfront

namespace Numeral

theorem digits_append (hcs : ∀ c ∈ cs, c.isDigit = true) (hrest : Stops Char.isDigit rest) :
    digits (cs ++ rest) = (cs, rest) := by
  rw [digits, takeWhile_append_stops hcs hrest, dropWhile_append_stops hcs hrest]

theorem readWhole?_toDigits (n : Nat) (hrest : Stops Char.isDigit rest) :
    readWhole? (Nat.toDigits 10 n ++ rest) = some (Nat.toDigits 10 n, rest) := by
  rw [readWhole?, digits_append isDigit_of_mem_toDigits hrest]
  split
  · rename_i hdigits
    exact absurd (congrArg Prod.fst hdigits) Nat.toDigits_ne_nil
  · rename_i d ds _ hdigits
    have hdigits : Nat.toDigits 10 n = '0' :: d :: ds := congrArg Prod.fst hdigits
    by_cases hn : n = 0
    · rw [hn, Nat.toDigits_zero] at hdigits
      cases hdigits
    · exact absurd (by rw [hdigits]; rfl) (toDigits_ne_zero_cons hn)
  · rename_i hdigits
    rw [← hdigits]

theorem readFraction?_stops (hrest : Stops continuesNumeral rest) :
    readFraction? rest = some ([], rest) := by
  unfold readFraction?
  split
  · have hpoint := Stops.cons_iff.mp hrest
    cases hpoint
  · rfl

theorem readExponent?_stops (hrest : Stops continuesNumeral rest) :
    readExponent? rest = some (none, rest) := by
  cases rest with
  | nil => rfl
  | cons c rest =>
      have hc := Stops.cons_iff.mp hrest
      simp only [continuesNumeral, Bool.or_eq_false_iff, decide_eq_false_iff_not] at hc
      simp [readExponent?, hc]

/-- The numeral of an integer is read whole. -/
theorem read?_printInteger (n : Int) (hrest : Stops continuesNumeral rest) :
    read? (printInteger n ++ rest) =
      some (⟨decide (n < 0), Nat.toDigits 10 n.natAbs, [], 0, true⟩, rest) := by
  have hdigit : Stops Char.isDigit rest := hrest.mono fun c hc => by simp [continuesNumeral, hc]
  have hhead : (Nat.toDigits 10 n.natAbs).head? ≠ some '-' := by
    intro hminus
    have hd := isDigit_of_mem_toDigits '-' (List.mem_of_mem_head? hminus)
    cases hd
  by_cases hn : n < 0
  · simp [read?, printInteger, hn, readWhole?_toDigits _ hdigit, readFraction?_stops hrest,
      readExponent?_stops hrest]
  · simp [read?, printInteger, hn, hhead, readWhole?_toDigits _ hdigit,
      readFraction?_stops hrest, readExponent?_stops hrest]

/-- It stands for the integer. -/
theorem value?_printInteger {n : Int} (hn : IsWord n) :
    value? ⟨decide (n < 0), Nat.toDigits 10 n.natAbs, [], 0, true⟩ = some (.integer n) := by
  obtain ⟨hlow, hhigh⟩ := hn
  have hinteger : integer? ⟨decide (n < 0), Nat.toDigits 10 n.natAbs, [], 0, true⟩ = some n := by
    simp only [integer?, digitsValue, Nat.ofDigitChars_ten_toDigits]
    by_cases hneg : n < 0
    · have hlimit : (decide (n.natAbs ≠ 0) && decide (n.natAbs ≤ signedLimit)) = true := by
        rw [Bool.and_eq_true, decide_eq_true_eq, decide_eq_true_eq]
        omega
      have hvalue : -(n.natAbs : Int) = n := by omega
      rw [if_neg (by decide), if_pos (decide_eq_true hneg), if_pos hlimit, hvalue]
    · have hlimit : n.natAbs < wordLimit := by omega
      have hvalue : (n.natAbs : Int) = n := by omega
      rw [if_neg (by decide), if_neg (by simpa using hneg), if_pos hlimit, hvalue]
  rw [value?, hinteger]

end Numeral

end ResourceQuery.Json

/-
Numbers are recognised exactly.

`Number.read?` takes each part of a number as far as it goes and looks only then at whether
a literal can end there; where none can, it does not try again with less.  What it finds is
compared here with what there is to find: `StandsAlone cs n` says that the first `n`
characters of a text are a number and that a literal can end behind them, and says it without
measuring anything.

A number that is read stands alone, and one that stands alone is read, whichever it is
(`read?_eq_some_iff_numeral`).  As there is one answer only, no text has two such numbers in
front, which is why nothing is missed by trying once.
-/
import ResourceQuery.Proofs.Lexeme.Ascii

namespace ResourceQuery.Number

variable {cs : List Char} {m n : Nat} {k : Kind}

/-- The first `n` characters of the text are a number, and a literal can end behind them. -/
structure StandsAlone (cs : List Char) (n : Nat) : Prop where
  le : n ≤ cs.length
  numeral : Numeral (cs.take n)
  /-- What is behind the number is nothing, or starts with a character that no literal goes on
  with. -/
  ends : Stops continuesLiteral (cs.drop n)

theorem read?_eq_some_iff_standsAlone :
    read? cs = some (n, k) ↔ StandsAlone cs n ∧ k = kind (cs.take n) := by
  rw [read?_eq_some_iff_numeral]
  constructor
  · rintro ⟨raw, rest, rfl, rfl, numeral, ends, rfl⟩
    refine ⟨⟨?_, ?_, ?_⟩, ?_⟩
    · rw [List.length_append]
      exact Nat.le_add_right _ _
    · rwa [List.take_left]
    · rwa [List.drop_left]
    · rw [List.take_left]
  · rintro ⟨⟨le, numeral, ends⟩, rfl⟩
    refine ⟨cs.take n, cs.drop n, (List.take_append_drop n cs).symm, ?_, numeral, ends, rfl⟩
    rw [List.length_take, Nat.min_eq_left le]

/-- A text has one number in front that stands alone, or none. -/
theorem StandsAlone.unique (hm : StandsAlone cs m) (hn : StandsAlone cs n) : m = n := by
  have hreadm : read? cs = some (m, kind (cs.take m)) :=
    read?_eq_some_iff_standsAlone.mpr ⟨hm, rfl⟩
  have hreadn : read? cs = some (n, kind (cs.take n)) :=
    read?_eq_some_iff_standsAlone.mpr ⟨hn, rfl⟩
  rw [hreadm] at hreadn
  exact congrArg Prod.fst (Option.some.inj hreadn)

/-- What is read as a number is the number that a text has in front. -/
structure ReadsExactly (cs : List Char) : Prop where
  /-- A number is read where one stands alone, and it is that one. -/
  found : ∀ n, (∃ k, read? cs = some (n, k)) ↔ StandsAlone cs n
  /-- There is no other. -/
  only : ∀ m n, StandsAlone cs m → StandsAlone cs n → m = n
  /-- It is as many bytes long as characters. -/
  bytes : ∀ n, StandsAlone cs n → byteLength (cs.take n) = n
  /-- It is an integer if it has neither a fraction nor an exponent, and not an integer
  otherwise. -/
  kinds : ∀ n k, read? cs = some (n, k) → ∀ s d e, OptionalSign s → Decimal d →
    OptionalExponent e → cs.take n = s ++ (d ++ e) →
      (k = .integer ↔ Digits d ∧ e = []) ∧ (k = .float ↔ ¬ (Digits d ∧ e = []))

/--
**A number is read exactly where one stands alone.**  Taking each part as far as it goes
neither overshoots a number that ends earlier nor stops short of one that ends later, since no
text has both.
-/
theorem number_read_exactly (cs : List Char) : ReadsExactly cs where
  found := by
    intro n
    constructor
    · rintro ⟨k, hread⟩
      exact (read?_eq_some_iff_standsAlone.mp hread).1
    · intro halone
      exact ⟨_, read?_eq_some_iff_standsAlone.mpr ⟨halone, rfl⟩⟩
  only := fun _ _ hm hn => hm.unique hn
  bytes := by
    intro n halone
    rw [halone.numeral.ascii.byteLength, List.length_take, Nat.min_eq_left halone.le]
  kinds := by
    intro n k hread s d e sign decimal exponent htext
    obtain ⟨-, rfl⟩ := read?_eq_some_iff_standsAlone.mp hread
    have hfractional : '.' ∈ d ∨ e ≠ [] ↔ ¬ (Digits d ∧ e = []) := by
      rw [decimal.digits_iff, Decidable.not_and_iff_not_or_not, Decidable.not_not]
    rw [htext, kind_numeral sign decimal exponent]
    by_cases hwhole : Digits d ∧ e = []
    · rw [if_neg fun h => hfractional.mp h hwhole]
      exact ⟨iff_of_true rfl hwhole, iff_of_false nofun fun h => h hwhole⟩
    · rw [if_pos (hfractional.mpr hwhole)]
      exact ⟨iff_of_false nofun hwhole, iff_of_true rfl hwhole⟩

/-- A number that runs into a literal is none, however much of it could have ended earlier. -/
example : read? ['1', '.', '5', '.', '6'] = none := by
  decide

end ResourceQuery.Number

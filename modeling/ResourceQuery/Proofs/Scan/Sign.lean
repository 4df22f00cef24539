/-
Signs in front of numbers.

Behind a sign a number is looked for at once, while a number without one is found only
after all that a literal could be before it.  The two come to the same: a number is read
exactly where a numeral stands that a literal can end behind (`read_eq_numeric_iff`), and
a numeral takes a sign without becoming another kind of number.  So a sign belongs to the
number that is read behind it, and where none is read it stands alone.
-/
import ResourceQuery.Proofs.Lexeme.Form
import ResourceQuery.Proofs.Scan.Passage

namespace ResourceQuery

open Number (Numeral)

/-- The kinds of numbers. -/
def Kind.Numeric (kind : Kind) : Prop :=
  kind = .integer ∨ kind = .float

variable {raw rest cs : List Char} {c d : Char} {l : Lexeme} {kind numeric : Kind}

/-! ### Where numbers are read -/

namespace Lexeme

theorem not_numeric_of_punctuation? (h : punctuation? c = some kind) : ¬ kind.Numeric := by
  unfold punctuation? at h
  split at h <;> cases h <;> simp [Kind.Numeric]

theorem not_numeric_of_sign? (h : sign? c = some kind) : ¬ kind.Numeric := by
  unfold sign? at h
  split at h <;> cases h <;> simp [Kind.Numeric]

theorem not_numeric_of_constant (h : (raw, kind) ∈ Constant.forms) : ¬ kind.Numeric := by
  obtain ⟨word, hword, -⟩ := Constant.mem_forms_iff.mp h
  cases hword <;> simp [Kind.Numeric]

theorem not_numeric_readWord (span : Span) (rest : List Char) :
    ¬ (readWord span rest).symbol.kind.Numeric := by
  unfold readWord
  split
  · exact nofun
  · split
    · exact nofun
    · split
      · exact nofun
      · rw [kind_textSymbol]
        exact nofun

theorem numeric_kind (raw : List Char) : (Number.kind raw).Numeric := by
  unfold Number.kind
  split
  · exact .inr rfl
  · exact .inl rfl

/-- Only a numeral is read as a number. -/
theorem Reading.of_numeric (h : Reading raw rest l) (hkind : l.symbol.kind.Numeric) :
    Numeral raw ∧ Stops continuesLiteral rest ∧ l = verbatim (Number.kind raw) raw := by
  cases h with
  | number numeral ends => exact ⟨numeral, ends, rfl⟩
  | punctuation h => exact absurd hkind (not_numeric_of_punctuation? h)
  | sign h => exact absurd hkind (not_numeric_of_sign? h)
  | constant form => exact absurd hkind (not_numeric_of_constant form)
  | word => exact absurd hkind (not_numeric_readWord _ _)
  | comparison => exact absurd hkind nofun
  | date => exact absurd hkind nofun
  | escaped =>
      rw [kind_textSymbol] at hkind
      exact absurd hkind nofun

/-- A number is read exactly where a numeral stands that a literal can end behind. -/
theorem read_eq_numeric_iff (hnumeric : numeric.Numeric) :
    read c cs = .ok (verbatim numeric raw) ↔ ∃ rest, c :: cs = raw ++ rest ∧ Numeral raw ∧
      Stops continuesLiteral rest ∧ numeric = Number.kind raw := by
  constructor
  · intro h
    obtain ⟨raw', rest, hcs, reading⟩ := read_eq_ok_iff.mp h
    obtain ⟨numeral, ends, hl⟩ := reading.of_numeric hnumeric
    simp only [verbatim, Lexeme.mk.injEq, Symbol.plain.injEq, String.ofList_inj] at hl
    obtain ⟨rfl, rfl, -⟩ := hl
    exact ⟨rest, hcs, numeral, ends, rfl⟩
  · rintro ⟨rest, hcs, numeral, ends, rfl⟩
    exact read_number numeral ends hcs

/-- Some number is read wherever such a numeral stands. -/
theorem exists_numeric_iff :
    (∃ numeric n, numeric.Numeric ∧ read d cs = .ok (verbatim numeric ((d :: cs).take n))) ↔
      ∃ raw rest, d :: cs = raw ++ rest ∧ Numeral raw ∧ Stops continuesLiteral rest := by
  constructor
  · rintro ⟨numeric, n, hnumeric, hread⟩
    obtain ⟨rest, hcs, numeral, ends, -⟩ := (read_eq_numeric_iff hnumeric).mp hread
    exact ⟨_, rest, hcs, numeral, ends⟩
  · rintro ⟨raw, rest, hcs, numeral, ends⟩
    refine ⟨Number.kind raw, raw.length, numeric_kind raw, ?_⟩
    rw [hcs, List.take_left]
    exact read_number numeral ends hcs

end Lexeme

/-! ### Signed numbers -/

namespace Number

theorem Numeral.cons_iff (hc : c = '+' ∨ c = '-') (hplus : raw.head? ≠ some '+')
    (hminus : raw.head? ≠ some '-') : Numeral (c :: raw) ↔ Numeral raw := by
  constructor
  · intro h
    generalize htext : c :: raw = text at h
    obtain ⟨sign, decimal, exponent⟩ := h
    cases sign with
    | none =>
        have hstops : Stops (fun c => c = '+' || c = '-') (c :: raw) :=
          htext ▸ decimal.stops_sign
        rw [Stops.cons_iff] at hstops
        rcases hc with rfl | rfl <;> cases hstops
    | plus =>
        obtain ⟨-, rfl⟩ := List.cons.inj htext
        exact .mk .none decimal exponent
    | minus =>
        obtain ⟨-, rfl⟩ := List.cons.inj htext
        exact .mk .none decimal exponent
  · intro h
    obtain ⟨sign, decimal, exponent⟩ := h
    cases sign with
    | none =>
        rcases hc with rfl | rfl
        · exact .mk .plus decimal exponent
        · exact .mk .minus decimal exponent
    | plus => exact absurd rfl hplus
    | minus => exact absurd rfl hminus

theorem kind_cons (hc : c = '+' ∨ c = '-') (raw : List Char) :
    Number.kind (c :: raw) = Number.kind raw := by
  rcases hc with rfl | rfl <;> simp [Number.kind]

end Number

namespace Lexeme

theorem eq_of_sign? (h : sign? c = some kind) : c = '+' ∨ c = '-' := by
  unfold sign? at h
  split at h
  · exact .inl rfl
  · exact .inr rfl
  · cases h

theorem head?_ne_of_sign? (h : sign? d = none) (hraw : d :: cs = raw ++ rest) :
    raw.head? ≠ some '+' ∧ raw.head? ≠ some '-' :=
  (ne_of_sign? h).imp (head?_ne_of_append hraw) (head?_ne_of_append hraw)

/-- A number is read with a sign in front of it exactly where it is read without one. -/
theorem read_signed_iff (hsign : sign? c = some kind) (hd : sign? d = none)
    (hnumeric : numeric.Numeric) (hraw : raw <+: d :: cs) :
    read c (d :: cs) = .ok (verbatim numeric (c :: raw)) ↔
      read d cs = .ok (verbatim numeric raw) := by
  have hc := eq_of_sign? hsign
  obtain ⟨after, hafter⟩ := hraw
  obtain ⟨hplus, hminus⟩ := head?_ne_of_sign? hd hafter.symm
  simp only [read_eq_numeric_iff hnumeric, Numeral.cons_iff hc hplus hminus,
    Number.kind_cons hc, List.cons_append, List.cons.injEq, true_and]

/-- Where no number is read behind it a sign stands alone. -/
theorem reading_sign (hsign : sign? c = some kind) (hd : sign? d = none)
    (hnone : ¬ ∃ numeric n, numeric.Numeric ∧
      read d cs = .ok (verbatim numeric ((d :: cs).take n))) :
    Reading [c] (d :: cs) (verbatim kind [c]) := by
  refine .sign hsign ?_
  rw [Option.eq_none_iff_forall_ne_some]
  rintro ⟨n, numeric⟩ hread
  obtain ⟨raw, rest, htext, -, numeral, ends, -⟩ := Number.numeral_of_read? hread
  obtain ⟨c', raw, rfl⟩ := List.exists_cons_of_ne_nil numeral.ne_nil
  obtain ⟨rfl, hcs⟩ : c = c' ∧ d :: cs = raw ++ rest := by simpa using htext
  obtain ⟨hplus, hminus⟩ := head?_ne_of_sign? hd hcs
  rw [Numeral.cons_iff (eq_of_sign? hsign) hplus hminus] at numeral
  exact hnone (exists_numeric_iff.mpr ⟨raw, rest, hcs, numeral, ends⟩)

end Lexeme

open Lexeme

/--
**Signed and unsigned numbers are recognised alike.**  A sign belongs to the number that is
read behind it, and makes no other kind of it; where no number is read behind it the sign
stands alone, and the scan goes on in front of what stands there.  That is wherever no numeral
stands that a literal can end behind.
-/
theorem sign_belongs_to_number (hsign : sign? c = some kind) (hd : sign? d = none)
    (cs : List Char) :
    (∀ numeric n, numeric.Numeric →
      (read c (d :: cs) = .ok (verbatim numeric (c :: (d :: cs).take n)) ↔
        read d cs = .ok (verbatim numeric ((d :: cs).take n)))) ∧
    ((¬ ∃ numeric n, numeric.Numeric ∧ read d cs = .ok (verbatim numeric ((d :: cs).take n))) →
      read c (d :: cs) = .ok (verbatim kind [c]) ∧
      ∀ (machine next : Machine) (position : Nat), machine.accept (.plain kind) = some next →
        Scan.step ⟨machine, position, c :: d :: cs⟩ =
          .accepted ⟨kind, String.singleton c, position⟩ ⟨next, position + 1, d :: cs⟩) ∧
    ((∃ numeric n, numeric.Numeric ∧ read d cs = .ok (verbatim numeric ((d :: cs).take n))) ↔
      ∃ raw rest, d :: cs = raw ++ rest ∧ Numeral raw ∧ Stops continuesLiteral rest) := by
  refine ⟨fun numeric n hnumeric => ?_, fun hnone => ?_, exists_numeric_iff⟩
  · exact read_signed_iff hsign hd hnumeric (List.take_prefix n (d :: cs))
  · have reading := reading_sign hsign hd hnone
    have hsize : byteLength [c] = 1 := by
      rcases eq_of_sign? hsign with rfl | rfl <;> rfl
    refine ⟨reading.read rfl, fun machine next position haccept => ?_⟩
    have hadvances : Scan.Advances ⟨machine, position, c :: d :: cs⟩
        ⟨[], [c], ⟨kind, String.ofList [c], position⟩⟩
        ⟨next, position + byteLength [c], d :: cs⟩ :=
      .mk (List.forall_mem_nil _) reading haccept
    rw [hadvances.step, hsize]
    rfl

/-- The `+` in `-1e+5` is part of the number, though no literal could have it. -/
theorem sign_belongs_to_exponent :
    sign? '-' = some .minus ∧ sign? '1' = none ∧
      read '-' ['1', 'e', '+', '5', ')'] = .ok (verbatim .float ['-', '1', 'e', '+', '5']) := by
  have hsign : sign? '-' = some .minus := rfl
  have hd : sign? '1' = none := rfl
  have hread : read '1' ['e', '+', '5', ')'] = .ok (verbatim .float ['1', 'e', '+', '5']) := rfl
  obtain ⟨halike, -⟩ := sign_belongs_to_number hsign hd ['e', '+', '5', ')']
  exact ⟨hsign, hd, (halike .float 4 (.inr rfl)).mpr hread⟩

end ResourceQuery

/-
How a literal without escapes is classified.

A literal is what its characters and the text behind it make of it, by a list of rules of
which the first that applies counts: a constant, a date, an integer, another number, a
glob, an operator that is called, the name of a type, or text.  Each rule is stated by the
grammar of the kind it is for, and none asks where a recogniser stops: the recognisers
look at the text behind the literal, each in its own way, but where a literal can end they
have no choice but to take the literal whole or to find nothing.
-/
import ResourceQuery.Proofs.DecisionList
import ResourceQuery.Proofs.Lexeme.Fault
import ResourceQuery.Proofs.Lexeme.Form

namespace ResourceQuery

open Number (Digits Decimal OptionalExponent Numeral)

/-- An unsigned number with a fraction, an exponent or both. -/
inductive Number.Fractional : List Char → Prop
  | mk {d e : List Char} (decimal : Decimal d) (exponent : OptionalExponent e)
      (fractional : '.' ∈ d ∨ e ≠ []) : Fractional (d ++ e)

/-- A literal can end in front of the character: it is punctuation, part of a comparison,
or a blank. -/
def EndsLiteral (c : Char) : Prop :=
  c ∈ ['(', ')', ',', ':', '&', '|', '=', '!', '<', '>'] ∨ isBlank c = true

/-- A literal without escapes, in front of a text where it ends. -/
structure Unescaped (raw rest : List Char) : Prop where
  literal : ∀ c ∈ raw, isLiteral c = true
  head : raw.head? ≠ some '-'
  ends : ∀ c ∈ rest.head?, EndsLiteral c
  plain : '%' ∉ rest

namespace Lexeme

end Lexeme

variable {raw rest cs : List Char} {c : Char}

/-! ### Unsigned numbers -/

namespace Number

theorem Fractional.kind (h : Fractional raw) : Number.kind raw = .float := by
  obtain ⟨decimal, exponent, fractional⟩ := h
  have hkind := kind_numeral .none decimal exponent
  rwa [List.nil_append, if_pos fractional] at hkind

theorem Digits.numeral (h : Digits raw) : Numeral raw := by
  simpa using Numeral.mk .none (.whole h) .none

theorem Fractional.numeral (h : Fractional raw) : Numeral raw := by
  obtain ⟨decimal, exponent, -⟩ := h
  exact .mk .none decimal exponent

end Number

/-! ### Where a literal ends -/

theorem EndsLiteral.not_continues (h : EndsLiteral c) : continuesLiteral c = false ∧ c ≠ '+' := by
  rcases h with hmem | hblank
  · simp only [List.mem_cons, List.not_mem_nil, or_false] at hmem
    rcases hmem with rfl | rfl | rfl | rfl | rfl | rfl | rfl | rfl | rfl | rfl <;> decide
  · refine ⟨?_, ?_⟩
    · rw [Bool.eq_false_iff]
      intro hc
      rw [not_isBlank_of_continuesLiteral hc] at hblank
      cases hblank
    · rintro rfl
      cases hblank

namespace Unescaped

theorem stops (h : Unescaped raw rest) : Stops continuesLiteral rest :=
  fun c hc => (h.ends c hc).not_continues.1

theorem escapeFree (h : Unescaped raw rest) (timed : Bool) :
    Span.EscapeFree timed (raw ++ rest) := by
  refine Span.escapeFree_of_not_mem fun hmem => ?_
  rcases List.mem_append.mp hmem with hmem | hmem
  · exact not_mem_percent h.literal hmem
  · exact h.plain hmem

/-- Whatever is read as a number is all of the literal. -/
theorem numeral_of_read? (h : Unescaped raw rest) {n : Nat} {kind : Kind}
    (hread : Number.read? (raw ++ rest) = some (n, kind)) : Numeral raw := by
  obtain ⟨raw', rest', htext, -, numeral, hstops, -⟩ := Number.numeral_of_read? hread
  rcases List.append_eq_append_iff.mp htext with ⟨more, rfl, rfl⟩ | ⟨more, rfl, rfl⟩
  · -- a number that goes on behind the literal has the character there in it
    cases more with
    | nil => simpa using numeral
    | cons d more =>
        have hd := (h.ends d rfl).not_continues
        rcases numeral.isLiteral_or d (List.mem_append_right raw List.mem_cons_self) with hc | hc
        · rw [continuesLiteral_of_isLiteral hc] at hd
          cases hd.1
        · exact absurd hc hd.2
  · -- and one that ends before the literal does cannot end there
    cases more with
    | nil => simpa using numeral
    | cons d more =>
        have hd := h.literal d (List.mem_append_right raw' List.mem_cons_self)
        rw [Stops.cons_iff.mp hstops.literal] at hd
        cases hd

end Unescaped

/-! ### What each rule gives

The dates are the one place where the recognisers look past the literal: the colons of a time
are no literal characters, so a date is read on into the text behind, and so is the opening of
one that breaks off.  Everything else is settled by the literal and the character behind it.
-/

namespace Lexeme

end Lexeme

end ResourceQuery

/-
What a symbol was read in view of.

Three readings are settled by what stands directly behind the lexeme: a name in front of
`(` is an operator, a name in front of `:` is a type, and text in front of a comparison
is a field.  The machine then waits for just that, in a context which admits nothing
else.  `Symbol.promised?` is what a symbol was read in view of and `Context.awaited?` is
what a context waits for.

The two sides are settled apart: the machine waits for what was promised
(`Move.awaited?_eq`), and the text behind a lexeme is read, by recognisers of its own, as
what the lexeme has promised (`Reading.exists_promised`).
-/
import ResourceQuery.Proofs.Grammar.Moves
import ResourceQuery.Proofs.Lexeme.Form

namespace ResourceQuery

/-- What was in view behind a symbol when it was read, where that settled the reading. -/
def Symbol.promised? : Symbol → Option Symbol
  | .plain .operator => some (.plain .openParenthesis)
  | .plain .typeName => some (.plain .colon)
  | .field => some .comparison
  | _ => none

/-- The one symbol that a context waits for. -/
def Context.awaited? : Context → Option Symbol
  | .afterOperator => some (.plain .openParenthesis)
  | .afterType => some (.plain .colon)
  | .afterField => some .comparison
  | _ => none

theorem Symbol.eq_of_kind_operator {s : Symbol} (h : s.kind = .operator) :
    s = .comparison ∨ s = .plain .operator := by
  cases s with
  | plain kind => exact .inr (congrArg Symbol.plain h)
  | field => cases h
  | comparison => exact .inl rfl

theorem Symbol.eq_of_kind_typeName {s : Symbol} (h : s.kind = .typeName) :
    s = .plain .typeName := by
  cases s with
  | plain kind => exact congrArg Symbol.plain h
  | field => cases h
  | comparison => cases h

theorem Symbol.promised?_cases {s a : Symbol} (h : s.promised? = some a) :
    s = .plain .operator ∧ a = .plain .openParenthesis ∨
      s = .plain .typeName ∧ a = .plain .colon ∨ s = .field ∧ a = .comparison := by
  unfold promised? at h
  split at h
  · exact .inl ⟨rfl, (Option.some.inj h).symm⟩
  · exact .inr (.inl ⟨rfl, (Option.some.inj h).symm⟩)
  · exact .inr (.inr ⟨rfl, (Option.some.inj h).symm⟩)
  · cases h

/-! ### The machine waits for what was promised -/

namespace Machine

open Grammar

variable {m n : Machine} {s a : Symbol}

theorem awaited?_afterValue (fs : List Frame) : (afterValue fs).awaited? = none := by
  match fs with
  | [] | .group :: _ | .arguments :: _ | .nested :: _ | .array :: _ => rfl

theorem promised?_of_scalar (h : Scalar s) : s.promised? = none := by
  cases h <;> rfl

/-- A move leads to a context that waits for what the symbol has promised. -/
theorem Move.awaited?_eq (h : Move m s n) : n.context.awaited? = s.promised? := by
  cases h with
  | comma between => rcases between with rfl | rfl <;> rfl
  | connect link => rcases link with rfl | rfl <;> rfl
  | separate link => rcases link with rfl | rfl <;> rfl
  | sign sign => rcases sign with rfl | rfl <;> rfl
  | signCast sign => rcases sign with rfl | rfl <;> rfl
  | close => exact awaited?_afterValue _
  | signed => exact awaited?_afterValue _
  | scalar scalar => rw [promised?_of_scalar scalar, awaited?_afterValue]
  | _ => rfl

/-- A context that waits for a symbol admits it. -/
theorem exists_accept_of_awaited? (h : m.context.awaited? = some a) :
    ∃ n, m.accept a = some n := by
  obtain ⟨c, fs⟩ := m
  cases c <;> cases h <;> exact ⟨_, rfl⟩

/-- Only behind a field is a comparison admitted. -/
theorem context_of_accept_comparison (h : m.accept .comparison = some n) :
    m.context = .afterField := by
  cases move_of_accept h with
  | comparison => rfl
  | connect link => rcases link with h | h <;> cases h
  | separate link => rcases link with h | h <;> cases h
  | sign sign => rcases sign with h | h <;> cases h
  | signCast sign => rcases sign with h | h <;> cases h
  | scalar scalar => cases scalar

/-- A field is admitted only where an expression or an argument can start. -/
theorem startsTerm_of_accept_field (h : m.accept .field = some n) : StartsTerm m.context := by
  cases move_of_accept h with
  | field start => exact start
  | connect link => rcases link with h | h <;> cases h
  | separate link => rcases link with h | h <;> cases h
  | sign sign => rcases sign with h | h <;> cases h
  | signCast sign => rcases sign with h | h <;> cases h
  | scalar scalar => cases scalar

end Machine

/-! ### What was in view is read next -/

namespace Lexeme

variable {raw rest : List Char} {c : Char} {kind : Kind} {l : Lexeme} {a : Symbol}

theorem promised?_of_punctuation? (h : punctuation? c = some kind) :
    (Symbol.plain kind).promised? = none := by
  unfold punctuation? at h
  split at h <;> cases h <;> rfl

theorem promised?_of_sign? (h : sign? c = some kind) :
    (Symbol.plain kind).promised? = none := by
  unfold sign? at h
  split at h <;> cases h <;> rfl

theorem promised?_of_constant (h : (raw, kind) ∈ Constant.forms) :
    (Symbol.plain kind).promised? = none := by
  simp only [Constant.forms, List.mem_cons, List.not_mem_nil, or_false, Prod.mk.injEq] at h
  rcases h with ⟨-, rfl⟩ | ⟨-, rfl⟩ | ⟨-, rfl⟩ | ⟨-, rfl⟩ <;> rfl

theorem promised?_of_number (raw : List Char) :
    (Symbol.plain (Number.kind raw)).promised? = none := by
  unfold Number.kind
  split <;> rfl

/-- What text has promised is a comparison, and one follows. -/
theorem exists_promised_textSymbol (ha : (textSymbol rest).promised? = some a) :
    ∃ raw' rest' l', rest = raw' ++ rest' ∧ Reading raw' rest' l' ∧ l'.symbol = a := by
  unfold textSymbol at ha
  split at ha
  · rename_i hfollows
    obtain ⟨⟨n, operator⟩, hread⟩ := Option.isSome_iff_exists.mp hfollows
    obtain ⟨raw', rest', hrest, -, spelling, longest⟩ := Comparison.read?_eq_some_iff.mp hread
    exact ⟨raw', rest', _, hrest, .comparison spelling longest, Option.some.inj ha⟩
  · cases ha

theorem exists_promised_readWord {span : Span}
    (ha : (readWord span rest).symbol.promised? = some a) :
    ∃ raw' rest' l', rest = raw' ++ rest' ∧ Reading raw' rest' l' ∧ l'.symbol = a := by
  unfold readWord at ha
  split at ha
  · cases ha
  · split at ha
    · rename_i hcall
      rw [Bool.and_eq_true, decide_eq_true_eq] at hcall
      obtain ⟨rest', rfl⟩ := List.head?_eq_some_iff.mp hcall.1
      exact ⟨['('], rest', _, rfl, .punctuation rfl, Option.some.inj ha⟩
    · split at ha
      · rename_i hcast
        rw [Bool.and_eq_true, decide_eq_true_eq] at hcast
        obtain ⟨rest', rfl⟩ := List.head?_eq_some_iff.mp hcast.1
        exact ⟨[':'], rest', _, rfl, .punctuation rfl, Option.some.inj ha⟩
      · exact exists_promised_textSymbol ha

/-- Where a symbol has promised another, the text behind it is read as that other one. -/
theorem Reading.exists_promised (h : Reading raw rest l)
    (ha : l.symbol.promised? = some a) :
    ∃ raw' rest' l', rest = raw' ++ rest' ∧ Reading raw' rest' l' ∧ l'.symbol = a := by
  cases h with
  | punctuation h => exact absurd ha (by simp [verbatim, promised?_of_punctuation? h])
  | comparison => cases ha
  | sign h => exact absurd ha (by simp [verbatim, promised?_of_sign? h])
  | number => exact absurd ha (by simp [verbatim, promised?_of_number])
  | constant form => exact absurd ha (by simp [verbatim, promised?_of_constant form])
  | date => cases ha
  | escaped => exact exists_promised_textSymbol ha
  | word => exact exists_promised_readWord ha

theorem not_spelled_of_continuesLiteral (h : continuesLiteral c = true) (cs : List Char) :
    ¬ Comparison.Spelled (c :: cs) := by
  rintro ⟨operator, spelling⟩
  obtain ⟨d, ds, hraw, hopens⟩ := spelling.exists_opens
  obtain ⟨rfl, -⟩ := List.cons.inj hraw
  rw [opens_of_continuesLiteral h] at hopens
  cases hopens

theorem symbol_readWord_ne_comparison (span : Span) (rest : List Char) :
    (readWord span rest).symbol ≠ .comparison := by
  unfold readWord
  split
  · exact nofun
  · split
    · exact nofun
    · split
      · exact nofun
      · unfold textSymbol
        split <;> exact nofun

/-- An operator is a comparison or is called, and how it is written tells which. -/
theorem Reading.symbol_of_operator (h : Reading raw rest l)
    (hkind : l.symbol.kind = .operator) :
    l.symbol = .comparison ∧ Comparison.Spelled raw ∨
      l.symbol = .plain .operator ∧ ¬ Comparison.Spelled raw := by
  have hnot : ∀ {kind : Kind}, (Symbol.plain kind).promised? = none → kind ≠ .operator := by
    rintro _ hnone rfl
    cases hnone
  cases h with
  | punctuation h => exact absurd hkind (hnot (promised?_of_punctuation? h))
  | comparison spelling => exact .inl ⟨rfl, _, spelling⟩
  | sign h => exact absurd hkind (hnot (promised?_of_sign? h))
  | number => exact absurd hkind (hnot (promised?_of_number _))
  | constant form => exact absurd hkind (hnot (promised?_of_constant form))
  | date => cases hkind
  | escaped =>
      rw [kind_textSymbol] at hkind
      cases hkind
  | word word =>
      obtain ⟨c, cs, rfl, hc⟩ := word.exists_cons
      rcases Symbol.eq_of_kind_operator hkind with hsymbol | hsymbol
      · exact absurd hsymbol (symbol_readWord_ne_comparison _ _)
      · exact .inr ⟨hsymbol, not_spelled_of_continuesLiteral hc cs⟩

theorem symbol_readWord {span : Span} :
    (readWord span rest).symbol.kind = .string →
      (readWord span rest).symbol = textSymbol rest := by
  unfold readWord
  split
  · intro h; cases h
  · split
    · intro h; cases h
    · split
      · intro h; cases h
      · intro _; rfl

/-- What is read as text starts like a literal and ends like one, and is a field exactly
where a comparison follows. -/
theorem Reading.of_string (h : Reading raw rest l) (hkind : l.symbol.kind = .string) :
    l.symbol = textSymbol rest ∧ Stops continuesLiteral rest ∧
      ∃ c cs, raw = c :: cs ∧ continuesLiteral c = true := by
  cases h with
  | punctuation h => exact absurd hkind (form_of_punctuation? h).kind_ne_string
  | comparison => cases hkind
  | sign h => exact absurd hkind (form_of_sign? h).kind_ne_string
  | number numeral => exact absurd hkind (form_of_numeral numeral).kind_ne_string
  | constant form => exact absurd hkind (form_of_constant form).kind_ne_string
  | date => cases hkind
  | escaped head whole ends escaped =>
      exact ⟨rfl, ends, Span.exists_cons_of_isEscaped whole escaped⟩
  | word word => exact ⟨symbol_readWord hkind, word.ends, word.exists_cons⟩

end Lexeme

end ResourceQuery

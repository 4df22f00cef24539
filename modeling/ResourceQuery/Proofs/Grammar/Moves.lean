/-
The moves of the machine, as a table.

`Machine.accept` is a test and a function, each a case analysis of its own.  What a
proof about a run wants is the list of the moves there are: `Move m s n` says that
`s` leads from `m` to `n`, with one constructor for each way to move, and `accept`
is shown to be that relation once and for all.  No proof behind this file unfolds
the machine again.

The second half is the invariant that every run keeps: the context agrees with the
innermost open parenthesis.
-/
import ResourceQuery.Grammar.Machine
import ResourceQuery.Proofs.Grammar.Sentence

namespace ResourceQuery

open Grammar

namespace Machine

/-- The contexts in which an expression, or an argument, can start. -/
def StartsTerm (c : Context) : Prop :=
  c = .expressionStart ∨ c = .arguments

/-- The contexts in which one item of a list has ended and the next can start. -/
def InList (c : Context) : Prop :=
  c = .arguments ∨ c = .array

/-- The contexts in which a value can start. -/
def StartsValue (c : Context) : Prop :=
  c = .afterComparison ∨ InList c

/-- The machine's moves. -/
inductive Move : Machine → Symbol → Machine → Prop
  | field {c : Context} {fs : List Frame} (start : StartsTerm c) :
      Move ⟨c, fs⟩ .field ⟨.afterField, fs⟩
  | comparison {fs : List Frame} :
      Move ⟨.afterField, fs⟩ .comparison ⟨.afterComparison, fs⟩
  | operator {c : Context} {fs : List Frame} (start : StartsTerm c) :
      Move ⟨c, fs⟩ (.plain .operator) ⟨.afterOperator, fs⟩
  | openGroup {fs : List Frame} :
      Move ⟨.expressionStart, fs⟩ (.plain .openParenthesis) ⟨.expressionStart, .group :: fs⟩
  | openCall {fs : List Frame} :
      Move ⟨.afterOperator, fs⟩ (.plain .openParenthesis) ⟨.arguments, .arguments :: fs⟩
  | openNested {fs : List Frame} :
      Move ⟨.arguments, fs⟩ (.plain .openParenthesis) ⟨.arguments, .nested :: fs⟩
  | openArray {fs : List Frame} :
      Move ⟨.afterComparison, fs⟩ (.plain .openParenthesis) ⟨.array, .array :: fs⟩
  | close {c : Context} {fs : List Frame} (between : InList c ∨ c = .afterExpression) :
      Move ⟨c, fs⟩ (.plain .closeParenthesis) ⟨afterValue fs.tail, fs.tail⟩
  | comma {c : Context} {fs : List Frame} (between : InList c) :
      Move ⟨c, fs⟩ (.plain .comma) ⟨c, fs⟩
  | connect {fs : List Frame} {s : Symbol} (link : Connective s) :
      Move ⟨.afterExpression, fs⟩ s ⟨.expressionStart, fs⟩
  | separate {fs : List Frame} {s : Symbol} (link : Connective s) :
      Move ⟨.arguments, fs⟩ s ⟨.arguments, fs⟩
  | sign {fs : List Frame} {s : Symbol} (sign : Sign s) :
      Move ⟨.arguments, fs⟩ s ⟨.afterSign, fs⟩
  | signCast {fs : List Frame} {s : Symbol} (sign : Sign s)
      (inside : afterValue fs = .arguments) : Move ⟨.afterCast, fs⟩ s ⟨.afterSign, fs⟩
  | signed {fs : List Frame} :
      Move ⟨.afterSign, fs⟩ (.plain .string) ⟨afterValue fs, fs⟩
  | scalar {c : Context} {fs : List Frame} {s : Symbol} (scalar : Scalar s)
      (start : StartsValue c ∨ c = .afterCast) : Move ⟨c, fs⟩ s ⟨afterValue fs, fs⟩
  | typeName {c : Context} {fs : List Frame} (start : StartsValue c) :
      Move ⟨c, fs⟩ (.plain .typeName) ⟨.afterType, fs⟩
  | colon {fs : List Frame} :
      Move ⟨.afterType, fs⟩ (.plain .colon) ⟨.afterCast, fs⟩

/-! ### What each context admits, read by symbol -/

section Admits

attribute [local simp] Context.admits Context.admitsKind Kind.isScalar

theorem admits_field_iff {c : Context} : c.admits .field = true ↔ StartsTerm c := by
  cases c <;> simp [StartsTerm]

theorem admits_operator_iff {c : Context} : c.admits (.plain .operator) = true ↔ StartsTerm c := by
  cases c <;> simp [StartsTerm]

theorem admits_openParenthesis_iff {c : Context} :
    c.admits (.plain .openParenthesis) = true ↔
      StartsTerm c ∨ c = .afterOperator ∨ c = .afterComparison := by
  cases c <;> simp [StartsTerm]

theorem admits_closeParenthesis_iff {c : Context} :
    c.admits (.plain .closeParenthesis) = true ↔ InList c ∨ c = .afterExpression := by
  cases c <;> simp [InList]

theorem admits_comma_iff {c : Context} : c.admits (.plain .comma) = true ↔ InList c := by
  cases c <;> simp [InList]

theorem admits_connective_iff {c : Context} {s : Symbol} (h : Connective s) :
    c.admits s = true ↔ c = .afterExpression ∨ c = .arguments := by
  rcases h with rfl | rfl <;> cases c <;> simp

theorem admits_typeName_iff {c : Context} :
    c.admits (.plain .typeName) = true ↔ StartsValue c := by
  cases c <;> simp [StartsValue, InList]

theorem admits_colon_iff {c : Context} : c.admits (.plain .colon) = true ↔ c = .afterType := by
  cases c <;> simp

theorem admits_scalar_iff {c : Context} {s : Symbol} (h : Scalar s) :
    c.admits s = true ↔
      (StartsValue c ∨ c = .afterCast) ∨ (c = .afterSign ∧ s = .plain .string) := by
  cases c <;> cases h <;> simp [StartsValue, InList]

/-- A sign is the one symbol for which the open parentheses matter. -/
theorem admits_sign_iff {c : Context} {fs : List Frame} {s : Symbol} (h : Sign s) :
    admits ⟨c, fs⟩ s = true ↔
      c = .arguments ∨ (c = .afterCast ∧ afterValue fs = .arguments) := by
  rcases h with rfl | rfl <;> cases c <;> simp [admits]

end Admits

theorem admits_of_not_sign {c : Context} {fs : List Frame} {s : Symbol} (h : ¬ Sign s) :
    admits ⟨c, fs⟩ s = c.admits s := by
  have hs : (decide (s = .plain .plus) || decide (s = .plain .minus)) = false := by
    simpa [Sign] using h
  simp [admits, hs]

theorem next_of_scalar {m : Machine} {s : Symbol} (h : Scalar s) :
    m.next s = ⟨afterValue m.frames, m.frames⟩ := by
  cases h <;> rfl

theorem next_of_sign {m : Machine} {s : Symbol} (h : Sign s) :
    m.next s = ⟨.afterSign, m.frames⟩ := by
  rcases h with rfl | rfl <;> rfl

theorem next_of_connective {m : Machine} {s : Symbol} (h : Connective s) :
    m.next s = m.connected := by
  rcases h with rfl | rfl <;> rfl

/-- Whatever the machine accepts is in the table. -/
theorem move_of_accept {m n : Machine} {s : Symbol} (h : m.accept s = some n) : Move m s n := by
  obtain ⟨c, fs⟩ := m
  obtain ⟨hadmits, rfl⟩ : admits ⟨c, fs⟩ s = true ∧ next ⟨c, fs⟩ s = n := by
    simpa [accept] using h
  by_cases hsign : Sign s
  · rw [next_of_sign hsign]
    rcases (admits_sign_iff hsign).mp hadmits with rfl | ⟨rfl, inside⟩
    · exact .sign hsign
    · exact .signCast hsign inside
  rw [admits_of_not_sign hsign] at hadmits
  by_cases hlink : Connective s
  · rw [next_of_connective hlink]
    rcases (admits_connective_iff hlink).mp hadmits with rfl | rfl
    · exact .connect hlink
    · exact .separate hlink
  by_cases hscalar : Scalar s
  · rw [next_of_scalar hscalar]
    rcases (admits_scalar_iff hscalar).mp hadmits with start | ⟨rfl, rfl⟩
    · exact .scalar hscalar start
    · exact .signed
  cases s with
  | field => exact .field (admits_field_iff.mp hadmits)
  | comparison =>
      obtain rfl : c = .afterField := by simpa [Context.admits] using hadmits
      exact .comparison
  | plain k =>
      cases k with
      | operator => exact .operator (admits_operator_iff.mp hadmits)
      | openParenthesis =>
          rcases admits_openParenthesis_iff.mp hadmits with (rfl | rfl) | rfl | rfl
          · exact .openGroup
          · exact .openNested
          · exact .openCall
          · exact .openArray
      | closeParenthesis => exact .close (admits_closeParenthesis_iff.mp hadmits)
      | comma => exact .comma (admits_comma_iff.mp hadmits)
      | colon =>
          obtain rfl := admits_colon_iff.mp hadmits
          exact .colon
      | typeName => exact .typeName (admits_typeName_iff.mp hadmits)
      | ending => cases c <;> cases hadmits
      | unknown => cases c <;> cases hadmits
      | ampersand => exact absurd (.inl rfl) hlink
      | verticalBar => exact absurd (.inr rfl) hlink
      | plus => exact absurd (.inl rfl) hsign
      | minus => exact absurd (.inr rfl) hsign
      | string => exact absurd .string hscalar
      | integer => exact absurd .integer hscalar
      | float => exact absurd .float hscalar
      | date => exact absurd .date hscalar
      | glob => exact absurd .glob hscalar
      | nullConstant => exact absurd .nullConstant hscalar
      | trueConstant => exact absurd .trueConstant hscalar
      | falseConstant => exact absurd .falseConstant hscalar
      | emptyConstant => exact absurd .emptyConstant hscalar

/-- Whatever is in the table the machine accepts. -/
theorem accept_of_move {m n : Machine} {s : Symbol} (h : Move m s n) : m.accept s = some n := by
  cases h with
  | field start => rcases start with rfl | rfl <;> rfl
  | comparison => rfl
  | operator start => rcases start with rfl | rfl <;> rfl
  | openGroup => rfl
  | openCall => rfl
  | openNested => rfl
  | openArray => rfl
  | close between => rcases between with (rfl | rfl) | rfl <;> rfl
  | comma between => rcases between with rfl | rfl <;> rfl
  | connect link => rcases link with rfl | rfl <;> rfl
  | separate link => rcases link with rfl | rfl <;> rfl
  | sign sign => rcases sign with rfl | rfl <;> rfl
  | signCast sign inside => rcases sign with rfl | rfl <;> simp [accept, admits, next, inside]
  | signed => rfl
  | scalar scalar start => rcases start with (rfl | rfl | rfl) | rfl <;> cases scalar <;> rfl
  | typeName start => rcases start with rfl | rfl | rfl <;> rfl
  | colon => rfl

theorem eq_next_of_accept {m n : Machine} {s : Symbol} (h : m.accept s = some n) :
    n = m.next s := by
  unfold accept at h
  split at h
  · exact (Option.some.inj h).symm
  · cases h

/-- **The machine makes exactly the moves of the table.** -/
theorem accept_eq_some_iff {m n : Machine} {s : Symbol} : m.accept s = some n ↔ Move m s n :=
  ⟨move_of_accept, accept_of_move⟩

/-! ### What a colon follows -/

theorem afterValue_ne_afterType (fs : List Frame) : afterValue fs ≠ .afterType := by
  match fs with
  | [] | .group :: _ | .arguments :: _ | .nested :: _ | .array :: _ => intro h; cases h

theorem Move.typeName_of_afterType {m n : Machine} {s : Symbol} (h : Move m s n)
    (hn : n.context = .afterType) : s = .plain .typeName := by
  cases h with
  | typeName => rfl
  | comma between => rcases between with rfl | rfl <;> cases hn
  | close => exact absurd hn (afterValue_ne_afterType _)
  | signed => exact absurd hn (afterValue_ne_afterType _)
  | scalar => exact absurd hn (afterValue_ne_afterType _)
  | _ => cases hn

/-- Only the name of a type has a colon behind it. -/
theorem typeName_of_colon {m n k : Machine} {s : Symbol} (h : m.accept s = some n)
    (hcolon : n.accept (.plain .colon) = some k) : s = .plain .typeName := by
  have hcontext : n.context = .afterType := by
    cases move_of_accept hcolon with
    | connect link => rcases link with h | h <;> cases h
    | separate link => rcases link with h | h <;> cases h
    | sign sign => rcases sign with h | h <;> cases h
    | signCast sign => rcases sign with h | h <;> cases h
    | scalar scalar => cases scalar
    | colon => rfl
  exact (move_of_accept h).typeName_of_afterType hcontext

/-! ### Runs -/

@[simp]
theorem acceptAll_nil (m : Machine) : m.acceptAll [] = some m :=
  rfl

theorem acceptAll_cons_of_move {m n : Machine} {s : Symbol} (h : Move m s n) (w : Word) :
    m.acceptAll (s :: w) = n.acceptAll w := by
  rw [acceptAll, accept_of_move h]
  rfl

theorem acceptAll_cons_eq_some_iff {m n : Machine} {s : Symbol} {w : Word} :
    m.acceptAll (s :: w) = some n ↔ ∃ k, Move m s k ∧ k.acceptAll w = some n := by
  simp only [acceptAll, Option.bind_eq_some_iff, accept_eq_some_iff]

/-! ### What a finished value is part of -/

section AfterValue

variable {fs : List Frame}

theorem afterValue_eq_afterExpression_iff :
    afterValue fs = .afterExpression ↔ fs = [] ∨ ∃ gs, fs = .group :: gs := by
  match fs with
  | [] | .group :: _ | .arguments :: _ | .nested :: _ | .array :: _ => simp [afterValue]

theorem afterValue_eq_arguments_iff :
    afterValue fs = .arguments ↔ ∃ f gs, fs = f :: gs ∧ (f = .arguments ∨ f = .nested) := by
  match fs with
  | [] | .group :: _ | .arguments :: _ | .nested :: _ | .array :: _ => simp [afterValue]

theorem afterValue_eq_array_iff : afterValue fs = .array ↔ ∃ gs, fs = .array :: gs := by
  match fs with
  | [] | .group :: _ | .arguments :: _ | .nested :: _ | .array :: _ => simp [afterValue]

end AfterValue

/-! ### The context agrees with the innermost open parenthesis -/

/-- The context is one that the innermost open parenthesis allows. -/
def Coherent (m : Machine) : Prop :=
  match m.context with
  | .expressionStart | .afterExpression => afterValue m.frames = .afterExpression
  | .arguments | .afterSign => afterValue m.frames = .arguments
  | .array => afterValue m.frames = .array
  | .afterOperator | .afterField | .afterComparison => afterValue m.frames ≠ .array
  | .afterType | .afterCast => True

theorem coherent_afterValue (fs : List Frame) : Coherent ⟨afterValue fs, fs⟩ := by
  match fs with
  | [] | .group :: _ | .arguments :: _ | .nested :: _ | .array :: _ => rfl

theorem coherent_start : Coherent start :=
  rfl

theorem Coherent.move {m n : Machine} {s : Symbol} (hm : m.Coherent) (h : Move m s n) :
    n.Coherent := by
  cases h with
  | field start =>
      rcases start with rfl | rfl <;> simp_all [Coherent]
  | comparison => exact hm
  | operator start => rcases start with rfl | rfl <;> simp_all [Coherent]
  | openGroup => rfl
  | openCall => rfl
  | openNested => rfl
  | openArray => rfl
  | close => exact coherent_afterValue _
  | comma => exact hm
  | connect => exact hm
  | separate => exact hm
  | sign => exact hm
  | signCast _ inside => exact inside
  | signed => exact coherent_afterValue _
  | scalar => exact coherent_afterValue _
  | typeName => trivial
  | colon => trivial

theorem Coherent.acceptAll {m n : Machine} {w : Word} (hm : m.Coherent)
    (h : m.acceptAll w = some n) : n.Coherent := by
  induction w generalizing m with
  | nil =>
      obtain rfl := Option.some.inj h
      exact hm
  | cons s w ih =>
      obtain ⟨k, hmove, hrest⟩ := acceptAll_cons_eq_some_iff.mp h
      exact ih (hm.move hmove) hrest

/-! ### A cast in front of a value -/

/-- The symbols that may have a cast in front of them: literals where a value can start, and
signs among arguments. -/
def Castable (c : Context) (s : Symbol) : Prop :=
  Scalar s ∧ StartsValue c ∨ Sign s ∧ c = .arguments

/-- Behind a cast the machine takes the symbol, and comes to where it came without one. -/
theorem Move.cast {m n : Machine} {s : Symbol} (hm : m.Coherent) (h : Move m s n)
    (hs : Castable m.context s) :
    Move m (.plain .typeName) ⟨.afterType, m.frames⟩ ∧ Move ⟨.afterCast, m.frames⟩ s n := by
  obtain ⟨c, fs⟩ := m
  have haccept := accept_of_move h
  rcases hs with ⟨scalar, start⟩ | ⟨sign, rfl⟩
  · have hmove : Move ⟨c, fs⟩ s ⟨afterValue fs, fs⟩ := .scalar scalar (.inl start)
    obtain rfl := Option.some.inj (haccept.symm.trans (accept_of_move hmove))
    exact ⟨.typeName start, .scalar scalar (.inr rfl)⟩
  · have hmove : Move ⟨.arguments, fs⟩ s ⟨.afterSign, fs⟩ := .sign sign
    obtain rfl := Option.some.inj (haccept.symm.trans (accept_of_move hmove))
    exact ⟨.typeName (.inr (.inl rfl)), .signCast sign hm⟩

end Machine

end ResourceQuery

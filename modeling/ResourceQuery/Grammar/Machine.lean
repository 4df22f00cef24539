/-
The machine that follows a query's grammar.

It reads one symbol at a time and knows its context and the lists that are open,
innermost first.  The open lists only tell it what a finished value is part of:
whether every parenthesis is closed is not its concern, and a closing parenthesis
outside every list changes nothing.
-/
import ResourceQuery.Grammar.Context

namespace ResourceQuery

/-- An open parenthesis, by what it opened. -/
inductive Frame
  /-- A group of expressions. -/
  | group
  /-- The argument list of an operator. -/
  | arguments
  /-- A list inside an argument list. -/
  | nested
  /-- A list behind a comparison. -/
  | array
  deriving DecidableEq, Repr

/-- A context together with the parentheses open around it. -/
structure Machine where
  context : Context
  /-- The open parentheses, innermost first. -/
  frames : List Frame
  deriving DecidableEq, Repr

namespace Machine

/-- The machine in front of a query. -/
def start : Machine :=
  ⟨.expressionStart, []⟩

/-- Where a finished value leads, given the parentheses open around it. -/
def afterValue : List Frame → Context
  | [] => .afterExpression
  | .group :: _ => .afterExpression
  | .arguments :: _ => .arguments
  | .nested :: _ => .arguments
  | .array :: _ => .array

/-- Whether the machine admits a symbol.  A cast takes a signed name wherever the
enclosing list does. -/
def admits (m : Machine) (s : Symbol) : Bool :=
  if m.context = .afterCast && (s = .plain .plus || s = .plain .minus) then
    afterValue m.frames = .arguments
  else m.context.admits s

/-- The machine behind an opening parenthesis. -/
def opened (m : Machine) : Machine :=
  match m.context with
  | .expressionStart => ⟨.expressionStart, .group :: m.frames⟩
  | .afterOperator => ⟨.arguments, .arguments :: m.frames⟩
  | .afterComparison => ⟨.array, .array :: m.frames⟩
  | _ => ⟨.arguments, .nested :: m.frames⟩

/-- The machine behind a closing parenthesis. -/
def closed (m : Machine) : Machine :=
  ⟨afterValue m.frames.tail, m.frames.tail⟩

/-- The machine behind a connective. -/
def connected (m : Machine) : Machine :=
  if m.context = .afterExpression then { m with context := .expressionStart } else m

/-- The machine behind a symbol that it admits. -/
def next (m : Machine) : Symbol → Machine
  | .field => { m with context := .afterField }
  | .comparison => { m with context := .afterComparison }
  | .plain .operator => { m with context := .afterOperator }
  | .plain .openParenthesis => m.opened
  | .plain .closeParenthesis => m.closed
  | .plain .comma => m
  | .plain .ampersand => m.connected
  | .plain .verticalBar => m.connected
  | .plain .plus => { m with context := .afterSign }
  | .plain .minus => { m with context := .afterSign }
  | .plain .typeName => { m with context := .afterType }
  | .plain .colon => { m with context := .afterCast }
  | .plain _ => { m with context := afterValue m.frames }

/-- The machine behind a symbol, if it admits the symbol. -/
def accept (m : Machine) (s : Symbol) : Option Machine :=
  if m.admits s then some (m.next s) else none

/-- The machine behind a sequence of symbols, if it admits each in turn. -/
def acceptAll (m : Machine) : List Symbol → Option Machine
  | [] => some m
  | s :: rest => (m.accept s).bind (fun next => next.acceptAll rest)

theorem acceptAll_append (m : Machine) (v w : List Symbol) :
    m.acceptAll (v ++ w) = (m.acceptAll v).bind (fun next => next.acceptAll w) := by
  induction v generalizing m with
  | nil => rfl
  | cons s v ih =>
    simp only [List.cons_append, acceptAll, Option.bind_assoc]
    congr 1
    exact funext ih

end Machine

end ResourceQuery

/-
The sentences of the query grammar.

The machine knows the grammar as contexts and open parentheses, one symbol at a
time.  Here the same grammar is written down as a grammar: which words are values,
arguments, expressions and whole queries.  Nothing below mentions a context or an
open parenthesis, so what `Proofs/Grammar/Viability.lean` proves of the machine is
a comparison of two descriptions that share only the alphabet.

Two things are more liberal than one might expect.  Nothing separates the arguments
of a call, since a comma is an argument like any other; and a closing parenthesis
that closes nothing may stand behind any outermost expression.
-/
import ResourceQuery.Grammar.Symbol

namespace ResourceQuery.Grammar

/-- A word over the grammar's alphabet. -/
abbrev Word := List Symbol

/-- Any number of words of a kind, one behind the other. -/
inductive Many (P : Word → Prop) : Word → Prop
  | nil : Many P []
  | cons {v w : Word} (head : P v) (tail : Many P w) : Many P (v ++ w)

/-- The connectives. -/
def Connective (s : Symbol) : Prop :=
  s = .plain .ampersand ∨ s = .plain .verticalBar

/-- The signs. -/
def Sign (s : Symbol) : Prop :=
  s = .plain .plus ∨ s = .plain .minus

/-- One or more words of a kind, with a connective between any two. -/
inductive Joined (P : Word → Prop) : Word → Prop
  | single {w : Word} (only : P w) : Joined P w
  | cons {v w : Word} {s : Symbol} (head : P v) (link : Connective s) (tail : Joined P w) :
      Joined P (v ++ s :: w)

/-- A word in parentheses. -/
def enclosed (w : Word) : Word :=
  .plain .openParenthesis :: w ++ [.plain .closeParenthesis]

/-- A literal of any kind, text included. -/
inductive Scalar : Symbol → Prop
  | string : Scalar (.plain .string)
  | integer : Scalar (.plain .integer)
  | float : Scalar (.plain .float)
  | date : Scalar (.plain .date)
  | glob : Scalar (.plain .glob)
  | nullConstant : Scalar (.plain .nullConstant)
  | trueConstant : Scalar (.plain .trueConstant)
  | falseConstant : Scalar (.plain .falseConstant)
  | emptyConstant : Scalar (.plain .emptyConstant)

/-- A sign and the text it belongs to, under a type cast. -/
inductive SignedCast : Word → Prop
  | mk {s : Symbol} (sign : Sign s) :
      SignedCast [.plain .typeName, .plain .colon, s, .plain .string]

/-- What stands in a list behind a comparison. -/
inductive Item : Word → Prop
  | scalar {s : Symbol} (scalar : Scalar s) : Item [s]
  | cast {s : Symbol} (scalar : Scalar s) : Item [.plain .typeName, .plain .colon, s]
  | comma : Item [.plain .comma]

/-- What stands behind a comparison. -/
inductive Value : Word → Prop
  | scalar {s : Symbol} (scalar : Scalar s) : Value [s]
  | cast {s : Symbol} (scalar : Scalar s) : Value [.plain .typeName, .plain .colon, s]
  | list {w : Word} (items : Many Item w) : Value (enclosed w)

/-- What stands among the arguments of a call, or in a list inside them. -/
inductive Argument : Word → Prop
  | scalar {s : Symbol} (scalar : Scalar s) : Argument [s]
  | signed {s : Symbol} (sign : Sign s) : Argument [s, .plain .string]
  | cast {s : Symbol} (scalar : Scalar s) : Argument [.plain .typeName, .plain .colon, s]
  | signedCast {w : Word} (cast : SignedCast w) : Argument w
  | comparison {w : Word} (value : Value w) : Argument (.field :: .comparison :: w)
  | signedComparison {w : Word} (cast : SignedCast w) : Argument (.field :: .comparison :: w)
  | call {w : Word} (arguments : Many Argument w) : Argument (.plain .operator :: enclosed w)
  | nested {w : Word} (arguments : Many Argument w) : Argument (enclosed w)
  | comma : Argument [.plain .comma]
  | connective {s : Symbol} (connective : Connective s) : Argument [s]

/-- A comparison, a call, or a group of expressions. -/
inductive Expression : Word → Prop
  | comparison {w : Word} (value : Value w) : Expression (.field :: .comparison :: w)
  | call {w : Word} (arguments : Many Argument w) : Expression (.plain .operator :: enclosed w)
  | group {w : Word} (query : Joined Expression w) : Expression (enclosed w)

/-- An outermost expression, and the closing parentheses behind it that close
nothing. -/
inductive OutermostExpression : Word → Prop
  | mk {w : Word} (expression : Expression w) (surplus : Nat) :
      OutermostExpression (w ++ List.replicate surplus (.plain .closeParenthesis))

/-- A whole query. -/
inductive Sentence : Word → Prop
  | empty : Sentence []
  | query {w : Word} (query : Joined OutermostExpression w) : Sentence w

end ResourceQuery.Grammar

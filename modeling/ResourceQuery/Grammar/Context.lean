/-
The contexts a token can stand in, and the symbols each of them admits.
-/
import ResourceQuery.Grammar.Symbol

namespace ResourceQuery

/-- Where in the grammar the next token stands. -/
inductive Context
  /-- The start of the query or of a group, and behind a connective outside any
  argument list. -/
  | expressionStart
  /-- Behind the name of an operator that is called. -/
  | afterOperator
  /-- Behind a field. -/
  | afterField
  /-- Behind a comparison. -/
  | afterComparison
  /-- In the argument list of an operator, or a list inside one. -/
  | arguments
  /-- In a list behind a comparison. -/
  | array
  /-- Behind a sign. -/
  | afterSign
  /-- Behind the name of a type. -/
  | afterType
  /-- Behind the colon of a type cast. -/
  | afterCast
  /-- Behind a whole expression, outside any argument list. -/
  | afterExpression
  deriving DecidableEq, Repr

namespace Context

/-- The kinds of token that a context admits as plain tokens. -/
def admitsKind : Context → Kind → Bool
  | expressionStart, kind => kind = .operator || kind = .openParenthesis
  | afterOperator, kind => kind = .openParenthesis
  | afterField, _ => false
  | afterComparison, kind => kind.isScalar || kind = .typeName || kind = .openParenthesis
  | arguments, kind =>
    kind.isScalar || kind = .typeName || kind = .operator || kind = .openParenthesis
      || kind = .closeParenthesis || kind = .comma || kind = .ampersand || kind = .verticalBar
      || kind = .plus || kind = .minus
  | array, kind =>
    kind.isScalar || kind = .typeName || kind = .comma || kind = .closeParenthesis
  | afterSign, kind => kind = .string
  | afterType, kind => kind = .colon
  | afterCast, kind => kind.isScalar
  | afterExpression, kind =>
    kind = .ampersand || kind = .verticalBar || kind = .closeParenthesis

/-- The symbols a context admits, whatever encloses it. -/
def admits (c : Context) : Symbol → Bool
  | .plain kind => c.admitsKind kind
  | .field => c = expressionStart || c = arguments
  | .comparison => c = afterField

end Context

end ResourceQuery

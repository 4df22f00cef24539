/-
The kinds of token a query splits into.

Every kind has a stable symbolic name, used in error messages and in the
interchange form of a token.  Names and kinds determine each other: `all` lists
each kind once, and `ofName` is the inverse of `name`.
-/

namespace ResourceQuery

/-- What a token is. -/
inductive Kind
  /-- The sentinel behind the last token. -/
  | ending
  /-- An operator name: called, as in `eq(`, or what a comparison stands for. -/
  | operator
  | openParenthesis
  | closeParenthesis
  | comma
  /-- Separates a type cast from the literal it casts. -/
  | colon
  /-- Logical and. -/
  | ampersand
  /-- Logical or. -/
  | verticalBar
  /-- Ascending order, in front of a name. -/
  | plus
  /-- Descending order, in front of a name. -/
  | minus
  /-- Text, its escapes decoded. -/
  | string
  /-- An integer of any length, with its sign. -/
  | integer
  /-- A number with a fraction or an exponent. -/
  | float
  /-- A moment in universal time, `YYYY-MM-DDTHH:MM:SSZ`. -/
  | date
  /-- Text with a wildcard, `*` or `?`, that is not escaped. -/
  | glob
  | nullConstant
  | trueConstant
  | falseConstant
  | emptyConstant
  /-- The name of a type, in front of a colon. -/
  | typeName
  /-- A character that starts no token; only an error reports it. -/
  | unknown
  deriving DecidableEq, Repr, Inhabited

namespace Kind

/-- Every kind, in the order in which they are listed. -/
def all : List Kind :=
  [ending, operator, openParenthesis, closeParenthesis, comma, colon, ampersand, verticalBar,
    plus, minus, string, integer, float, date, glob, nullConstant, trueConstant, falseConstant,
    emptyConstant, typeName, unknown]

/-- The symbolic name of a kind. -/
def name : Kind → String
  | ending => "T_END"
  | operator => "T_OPERATOR"
  | openParenthesis => "T_OPEN_PARENTHESIS"
  | closeParenthesis => "T_CLOSE_PARENTHESIS"
  | comma => "T_COMMA"
  | colon => "T_COLON"
  | ampersand => "T_AMPERSAND"
  | verticalBar => "T_VERTICAL_BAR"
  | plus => "T_PLUS"
  | minus => "T_MINUS"
  | string => "T_STRING"
  | integer => "T_INTEGER"
  | float => "T_FLOAT"
  | date => "T_DATE"
  | glob => "T_GLOB"
  | nullConstant => "T_NULL"
  | trueConstant => "T_TRUE"
  | falseConstant => "T_FALSE"
  | emptyConstant => "T_EMPTY"
  | typeName => "T_TYPE"
  | unknown => "T_UNKNOWN"

theorem mem_all (k : Kind) : k ∈ all := by
  cases k <;> decide

/-- No two kinds share a name. -/
theorem name_injective {j k : Kind} (h : j.name = k.name) : j = k := by
  revert h
  cases j <;> cases k <;> decide

/-- A name that no kind bears. -/
structure UnknownName where
  name : String
  deriving DecidableEq, Repr

/-- The wording of the error. -/
def UnknownName.message (e : UnknownName) : String :=
  "unknown token type '" ++ e.name ++ "'"

/-- The kind that bears a name. -/
def ofName (s : String) : Except UnknownName Kind :=
  match all.find? (fun k => k.name == s) with
  | some k => .ok k
  | none => .error ⟨s⟩

/-- A name is read back as the kind that bears it. -/
theorem ofName_eq_ok_iff {s : String} {k : Kind} : ofName s = .ok k ↔ k.name = s := by
  unfold ofName
  constructor
  · intro h
    split at h
    · rename_i j hj
      cases h
      simpa using List.find?_some hj
    · cases h
  · intro h
    cases hfind : all.find? (fun j => j.name == s) with
    | none =>
      have hnone := List.find?_eq_none.mp hfind k (mem_all k)
      simp [h] at hnone
    | some j =>
      have hj : j.name = s := by simpa using List.find?_some hfind
      rw [name_injective (hj.trans h.symm)]

/-- The kinds of value that stand alone, as an argument or behind a comparison. -/
def isScalar : Kind → Bool
  | string | integer | float | date | glob => true
  | nullConstant | trueConstant | falseConstant | emptyConstant => true
  | _ => false

end Kind

end ResourceQuery

/-
Numbers, as a literal or behind a sign.

A number is an optional sign, digits with an optional fraction (or a fraction
alone), and an optional exponent.  Each part is read greedily, and none can take
what a later part would need, so reading the longest of each part in turn reads
the longest number.  A number that runs straight into more of a literal is no
number: `1abc` and `1.5.6` are read as text.

The parts are measured rather than cut out: each function says how many
characters its part takes, zero where the part is absent.
-/
import ResourceQuery.Literal.Character
import ResourceQuery.Token.Kind

namespace ResourceQuery.Number

/-- How many digits a text starts with. -/
def digitCount (cs : List Char) : Nat :=
  (cs.takeWhile Char.isDigit).length

/-- The length of a sign. -/
def signLength : List Char → Nat
  | c :: _ => if c = '+' || c = '-' then 1 else 0
  | [] => 0

/-- The length of a point and the digits behind it; without digits there is no
fraction. -/
def fractionLength : List Char → Nat
  | c :: cs => if c = '.' && digitCount cs ≠ 0 then 1 + digitCount cs else 0
  | [] => 0

/-- The length of digits with an optional fraction, or of a fraction alone. -/
def decimalLength (cs : List Char) : Nat :=
  digitCount cs + fractionLength (cs.drop (digitCount cs))

/-- The length of an exponent: its letter, an optional sign, and digits. -/
def exponentLength : List Char → Nat
  | c :: cs =>
    let digits := digitCount (cs.drop (signLength cs))
    if (c = 'e' || c = 'E') && digits ≠ 0 then 1 + signLength cs + digits else 0
  | [] => 0

/-- The length of a decimal with an optional exponent. -/
def unsignedLength (cs : List Char) : Nat :=
  if decimalLength cs = 0 then 0
  else decimalLength cs + exponentLength (cs.drop (decimalLength cs))

/-- The kind of a written number: an integer has neither fraction nor exponent. -/
def kind (text : List Char) : Kind :=
  if text.any (fun c => c = '.' || c = 'e' || c = 'E') then .float else .integer

/-- The number a text starts with: its length and its kind. -/
def read? (cs : List Char) : Option (Nat × Kind) :=
  let unsigned := unsignedLength (cs.drop (signLength cs))
  let length := signLength cs + unsigned
  if unsigned ≠ 0 && endsLiteral (cs.drop length) then some (length, kind (cs.take length))
  else none

/-- A number takes at least one character. -/
theorem read?_length_pos {cs : List Char} {n : Nat} {k : Kind} (h : read? cs = some (n, k)) :
    0 < n := by
  simp only [read?] at h
  split at h
  · rename_i hcond
    simp only [Option.some.injEq, Prod.mk.injEq] at h
    simp only [ne_eq, Bool.and_eq_true, decide_eq_true_eq] at hcond
    omega
  · cases h

end ResourceQuery.Number

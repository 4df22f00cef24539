/-
Scanning a query.

A scan is a place in a query: the machine that has followed the grammar so far,
the position, and the text that is left.  One step skips blanks, reads a lexeme
and offers it to the machine.  A step ends the scan, fails on the text, is refused
by the machine, or leads to a scan further on.

`run` repeats the step and keeps the tokens it has accepted, whatever the scan
comes to.  It can start anywhere, with any machine, so what a scan does behind a
place can be compared with what it does from there alone.
-/
import ResourceQuery.Lexeme
import ResourceQuery.Text.ByteLength
import ResourceQuery.Grammar.Machine
import ResourceQuery.TokenStream

namespace ResourceQuery

/-- A scan in progress. -/
structure Scan where
  machine : Machine
  /-- How many bytes of the query lie behind the scan. -/
  position : Nat
  /-- The text in front of the scan. -/
  rest : List Char
  deriving DecidableEq, Repr

/-- What one step of a scan comes to. -/
inductive Step
  /-- The query ends at `position`. -/
  | finished (position : Nat)
  /-- No lexeme can be read. -/
  | malformed (error : SyntaxError)
  /-- The machine does not admit the token. -/
  | refused (token : Token)
  /-- The token is accepted, and the scan goes on. -/
  | accepted (token : Token) (next : Scan)
  deriving DecidableEq, Repr

/-- What a scan comes to. -/
inductive Ending
  /-- The query ends at `position`, and leaves the machine as it is. -/
  | finished (machine : Machine) (position : Nat)
  /-- No lexeme can be read. -/
  | malformed (error : SyntaxError)
  /-- The machine does not admit the token. -/
  | refused (token : Token)
  deriving DecidableEq, Repr

/-- The tokens a scan accepts, and what it comes to. -/
structure Trace where
  tokens : List Token
  ending : Ending
  deriving DecidableEq, Repr

/-- The trace with one more token in front. -/
def Trace.cons (token : Token) (t : Trace) : Trace :=
  ⟨token :: t.tokens, t.ending⟩

/-- The stream of a trace that reached the end of the query, or else its error. -/
def Trace.result (t : Trace) : Except SyntaxError TokenStream :=
  match t.ending with
  | .finished _ position => .ok (.close t.tokens position)
  | .malformed error => .error error
  | .refused token => .error (SyntaxError.ofToken token)

namespace Scan

/-- The scan in front of a query. -/
def start (query : String) : Scan :=
  ⟨.start, 0, query.toList⟩

/-- The scan behind the blanks in front of it. -/
def skipBlanks (s : Scan) : Scan :=
  { s with
    position := s.position + byteLength (s.rest.takeWhile isBlank)
    rest := s.rest.dropWhile isBlank }

/-- The scan behind a lexeme that the machine has accepted. -/
def behind (s : Scan) (l : Lexeme) (machine : Machine) : Scan :=
  ⟨machine, s.position + byteLength (s.rest.take l.length), s.rest.drop l.length⟩

/-- One step of a scan that no blank stands in front of. -/
def readToken (s : Scan) : Step :=
  match s.rest with
  | [] => .finished s.position
  | c :: cs =>
    match Lexeme.read c cs with
    | .error fault => .malformed ⟨fault, s.position⟩
    | .ok lexeme =>
      match s.machine.accept lexeme.symbol with
      | none => .refused (lexeme.token s.position)
      | some machine => .accepted (lexeme.token s.position) (s.behind lexeme machine)

/-- One step of a scan. -/
def step (s : Scan) : Step :=
  s.skipBlanks.readToken

theorem length_rest_skipBlanks_le (s : Scan) : s.skipBlanks.rest.length ≤ s.rest.length :=
  (List.dropWhile_suffix _).length_le

theorem length_rest_of_readToken {s next : Scan} {token : Token}
    (h : s.readToken = .accepted token next) : next.rest.length < s.rest.length := by
  unfold readToken at h
  split at h
  · cases h
  · rename_i c cs hrest
    split at h
    · cases h
    · rename_i lexeme hread
      have hpos := Lexeme.read_length_pos hread
      split at h
      · cases h
      · cases h
        simp only [behind, hrest, List.length_drop, List.length_cons]
        omega

/-- An accepted token leaves less text in front of the scan. -/
theorem length_rest_of_step {s next : Scan} {token : Token}
    (h : s.step = .accepted token next) : next.rest.length < s.rest.length :=
  Nat.lt_of_lt_of_le (length_rest_of_readToken h) s.length_rest_skipBlanks_le

/-- The whole of a scan. -/
def run (s : Scan) : Trace :=
  match h : s.step with
  | .finished position => ⟨[], .finished s.machine position⟩
  | .malformed error => ⟨[], .malformed error⟩
  | .refused token => ⟨[], .refused token⟩
  | .accepted token next =>
    have _shorter := length_rest_of_step h
    (run next).cons token
termination_by s.rest.length

/-! ### How a run unfolds -/

theorem run_of_finished {s : Scan} {position : Nat} (h : s.step = .finished position) :
    s.run = ⟨[], .finished s.machine position⟩ := by
  rw [run]
  split <;> simp_all

theorem run_of_malformed {s : Scan} {error : SyntaxError} (h : s.step = .malformed error) :
    s.run = ⟨[], .malformed error⟩ := by
  rw [run]
  split <;> simp_all

theorem run_of_refused {s : Scan} {token : Token} (h : s.step = .refused token) :
    s.run = ⟨[], .refused token⟩ := by
  rw [run]
  split <;> simp_all

theorem run_of_accepted {s next : Scan} {token : Token} (h : s.step = .accepted token next) :
    s.run = next.run.cons token := by
  rw [run]
  split <;> simp_all

end Scan

/-- The tokens of a query, if it is well formed and follows the grammar. -/
def tokenize (query : String) : Except SyntaxError TokenStream :=
  (Scan.start query).run.result

end ResourceQuery

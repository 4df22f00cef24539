/-
A scan does the same at any position, and with any blanks in front of it.

Positions are counted and reported, and nothing else is done with them.  So the trace of a
scan that is moved is the trace moved; and blanks in front of a scan do no more than move
what it comes to.
-/
import ResourceQuery.Proofs.Scan.Passage

namespace ResourceQuery

variable {a b : Nat}

/-! ### What is reported, at another position -/

/-- The error at another position: `b` bytes in front of it stand where `a` did. -/
def SyntaxError.moved (a b : Nat) (e : SyntaxError) : SyntaxError :=
  { e with position := e.position - a + b }

/-- The step at another position: `b` bytes in front of it stand where `a` did. -/
def Step.moved (a b : Nat) : Step → Step
  | .finished position => .finished (position - a + b)
  | .malformed error => .malformed (error.moved a b)
  | .refused token => .refused (token.moved a b)
  | .accepted token next => .accepted (token.moved a b) (next.moved a b)

/-- The ending at another position: `b` bytes in front of it stand where `a` did. -/
def Ending.moved (a b : Nat) : Ending → Ending
  | .finished machine position => .finished machine (position - a + b)
  | .malformed error => .malformed (error.moved a b)
  | .refused token => .refused (token.moved a b)

/-- The trace at another position: `b` bytes in front of it stand where `a` did. -/
def Trace.moved (a b : Nat) (t : Trace) : Trace :=
  ⟨t.tokens.map (Token.moved a b), t.ending.moved a b⟩

theorem Trace.result_moved {t : Trace} {error : SyntaxError} (h : t.result = .error error) :
    (t.moved a b).result = .error (error.moved a b) := by
  obtain ⟨tokens, ending⟩ := t
  cases ending with
  | finished machine position => cases h
  | malformed fault =>
      obtain rfl := Except.error.inj h
      rfl
  | refused token =>
      obtain rfl := Except.error.inj h
      rfl

/-- What comes to a stream comes to one elsewhere too, and behind other tokens. -/
theorem Trace.exists_result_moved {t : Trace} {s : TokenStream} (h : t.result = .ok s)
    (tokens : List Token) :
    ∃ u, Trace.result ⟨tokens ++ (t.moved a b).tokens, (t.moved a b).ending⟩ = .ok u ∧
      u.toList = tokens ++ s.toList.map (Token.moved a b) := by
  obtain ⟨machine, position, hending, rfl⟩ := Trace.exists_finished h
  refine ⟨.close (tokens ++ t.tokens.map (Token.moved a b)) (position - a + b), ?_, ?_⟩
  · simp only [Trace.result, Trace.moved, hending, Ending.moved]
  · simp only [TokenStream.toList_close, List.map_append, List.map_singleton, List.append_assoc]
    rfl

namespace Scan

variable {s next : Scan} {token : Token} {machine : Machine} {position : Nat}
  {blanks rest : List Char}

theorem skipBlanks_moved (ha : a ≤ s.position) :
    (s.moved a b).skipBlanks = s.skipBlanks.moved a b := by
  simp only [skipBlanks, Scan.moved, Scan.mk.injEq, and_true, true_and]
  omega

theorem behind_moved (ha : a ≤ s.position) (l : Lexeme) (machine : Machine) :
    (s.moved a b).behind l machine = (s.behind l machine).moved a b := by
  simp only [behind, Scan.moved, Scan.mk.injEq, and_true, true_and]
  omega

theorem readToken_moved (ha : a ≤ s.position) :
    (s.moved a b).readToken = s.readToken.moved a b := by
  have hrest : (s.moved a b).rest = s.rest := rfl
  have hmachine : (s.moved a b).machine = s.machine := rfl
  rw [readToken, readToken, hrest, hmachine]
  cases s.rest with
  | nil => rfl
  | cons c cs =>
      simp only
      cases Lexeme.read c cs with
      | error fault => rfl
      | ok lexeme =>
          simp only
          cases s.machine.accept lexeme.symbol with
          | none => rfl
          | some machine => exact congrArg (Step.accepted _) (behind_moved ha lexeme machine)

theorem step_moved (ha : a ≤ s.position) : (s.moved a b).step = s.step.moved a b := by
  have hle : a ≤ s.skipBlanks.position := Nat.le_trans ha (Nat.le_add_right _ _)
  rw [step, skipBlanks_moved ha, readToken_moved hle, step]

/-- **A scan that is moved does the same, elsewhere.** -/
theorem run_moved {s : Scan} (ha : a ≤ s.position) : (s.moved a b).run = s.run.moved a b := by
  have hstep := step_moved (b := b) ha
  cases h : s.step with
  | finished position =>
      rw [h] at hstep
      rw [run_of_finished hstep, run_of_finished h]
      rfl
  | malformed error =>
      rw [h] at hstep
      rw [run_of_malformed hstep, run_of_malformed h]
      rfl
  | refused token =>
      rw [h] at hstep
      rw [run_of_refused hstep, run_of_refused h]
      rfl
  | accepted token next =>
      obtain ⟨t, hadvances, -⟩ := advances_of_step h
      have _shorter := length_rest_of_step h
      rw [h] at hstep
      rw [run_of_accepted hstep, run_of_accepted h,
        run_moved (Nat.le_trans ha hadvances.position_le_next)]
      rfl
termination_by s.rest.length

/-! ### Blanks in front -/

theorem skipBlanks_of_blanks (hblanks : ∀ c ∈ blanks, isBlank c = true) :
    skipBlanks ⟨machine, position, blanks ++ rest⟩ =
      skipBlanks ⟨machine, position + byteLength blanks, rest⟩ := by
  simp only [skipBlanks, List.takeWhile_append_of_pos hblanks, List.dropWhile_append_of_pos hblanks,
    byteLength_append, Nat.add_assoc]

theorem run_congr {s' : Scan} (hmachine : s.machine = s'.machine)
    (hskip : s.skipBlanks = s'.skipBlanks) : s.run = s'.run := by
  have hstep : s.step = s'.step := congrArg readToken hskip
  cases h : s'.step with
  | finished position => rw [run_of_finished (hstep.trans h), run_of_finished h, hmachine]
  | malformed error => rw [run_of_malformed (hstep.trans h), run_of_malformed h]
  | refused token => rw [run_of_refused (hstep.trans h), run_of_refused h]
  | accepted token next => rw [run_of_accepted (hstep.trans h), run_of_accepted h]

/-- A scan goes on behind the blanks in front of it. -/
theorem run_of_blanks (hblanks : ∀ c ∈ blanks, isBlank c = true) :
    run ⟨machine, position, blanks ++ rest⟩ =
      run ⟨machine, position + byteLength blanks, rest⟩ :=
  run_congr rfl (skipBlanks_of_blanks hblanks)

/-- More blanks in front of a scan move what it comes to. -/
theorem run_insert_blanks {more : List Char} (hblanks : ∀ c ∈ blanks, isBlank c = true)
    (hmore : ∀ c ∈ more, isBlank c = true) :
    run ⟨machine, position, blanks ++ (more ++ rest)⟩ =
      (run ⟨machine, position, blanks ++ rest⟩).moved 0 (byteLength more) := by
  rw [run_of_blanks hblanks, run_of_blanks hmore, run_of_blanks hblanks,
    ← run_moved (Nat.zero_le _), Scan.moved, Nat.sub_zero]

end Scan

end ResourceQuery

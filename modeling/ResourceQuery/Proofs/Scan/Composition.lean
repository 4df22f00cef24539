/-
A query can be scanned up to a delimiter, and then from there.

No lexeme in front of the delimiter is read in view of what stands behind it (`Blind`), so
while there is text left in front of it a step does not see the rest (`step_extended`); when
there is none, the scan goes on with the machine it has come to.  So the trace of a query
that goes on behind a delimiter is the trace up to there, continued with that of a scan from
there, unless there was an error before (`run_extended`).
-/
import Mathlib.Data.List.Basic
import ResourceQuery.Proofs.Lexeme.Delimiter
import ResourceQuery.Proofs.Scan.Shift

namespace ResourceQuery

/-- The text is empty, or ends in a delimiter. -/
def Delimited (cs : List Char) : Prop :=
  ∀ d ∈ cs.getLast?, isDelimiter d = true

variable {u v q cs : List Char} {c d : Char}

theorem Delimited.of_append_right (h : Delimited (u ++ v)) : Delimited v := by
  intro d hd
  have hv : v ≠ [] := by
    rintro rfl
    cases hd
  exact h d (by rwa [List.getLast?_append_of_ne_nil u hv])

theorem Delimited.exists_last (h : Delimited cs) (hcs : cs ≠ []) :
    ∃ u d, cs = u ++ [d] ∧ isDelimiter d = true := by
  obtain ⟨u, d, hu⟩ := (List.eq_nil_or_concat cs).resolve_left hcs
  rw [List.concat_eq_append] at hu
  exact ⟨u, d, hu, h d (by simp [hu])⟩

/-- No lexeme of the text is read in view of what stands behind it. -/
def Blind (q cs : List Char) : Prop :=
  ∀ front c rest, cs = front ++ c :: rest → Lexeme.read c (rest ++ q) = Lexeme.read c rest

theorem Blind.of_append_right (h : Blind q (u ++ v)) : Blind q v := by
  rintro front c rest rfl
  exact h (u ++ front) c rest (List.append_assoc _ _ _).symm

theorem Delimited.blind (h : Delimited cs) : Blind q cs := by
  rintro front c rest rfl
  obtain ⟨u, d, htext, hd⟩ := h.of_append_right.exists_last (List.cons_ne_nil c rest)
  refine Lexeme.read_delimiter hd (q := q) (r := []) ?_ htext
  rw [← List.cons_append, htext, List.append_assoc, List.singleton_append]

theorem Lexeme.length_le_of_read {l : Lexeme} (h : Lexeme.read c cs = .ok l) :
    l.length ≤ (c :: cs).length := by
  obtain ⟨raw, rest, htext, reading⟩ := Lexeme.reading_of_read h
  rw [htext, reading.length, List.length_append]
  exact Nat.le_add_right _ _

/-- The scan with more text behind the one it has. -/
def Scan.extended (q : List Char) (s : Scan) : Scan :=
  { s with rest := s.rest ++ q }

/-- The step with more text behind the one it leaves. -/
def Step.extended (q : List Char) : Step → Step
  | .accepted token next => .accepted token (next.extended q)
  | step => step

/-- The trace of a scan that goes on with more text where it reaches the end. -/
def Trace.continued (q : List Char) (t : Trace) : Trace :=
  match t.ending with
  | .finished machine position =>
    let back := Scan.run ⟨machine, position, q⟩
    ⟨t.tokens ++ back.tokens, back.ending⟩
  | _ => t

theorem Trace.continued_cons (token : Token) (t : Trace) :
    (t.cons token).continued q = (t.continued q).cons token := by
  obtain ⟨tokens, ending⟩ := t
  cases ending <;> rfl

namespace Scan

variable {s next : Scan} {token : Token}

theorem behind_extended {l : Lexeme} (hl : l.length ≤ s.rest.length) (machine : Machine) :
    (s.extended q).behind l machine = (s.behind l machine).extended q := by
  simp only [behind, extended, List.take_append_of_le_length hl, List.drop_append_of_le_length hl]

theorem readToken_extended (hs : Blind q s.rest) (hrest : s.rest ≠ []) :
    (s.extended q).readToken = s.readToken.extended q := by
  obtain ⟨c, cs, hcs⟩ := List.exists_cons_of_ne_nil hrest
  have hextended : (s.extended q).rest = c :: (cs ++ q) := by
    rw [extended, hcs, List.cons_append]
  have hmachine : (s.extended q).machine = s.machine := rfl
  have hread : Lexeme.read c (cs ++ q) = Lexeme.read c cs := hs [] c cs hcs
  simp only [readToken, hextended, hcs, hmachine, hread]
  cases hlexeme : Lexeme.read c cs with
  | error fault => rfl
  | ok lexeme =>
      have hlength : lexeme.length ≤ s.rest.length := hcs ▸ Lexeme.length_le_of_read hlexeme
      simp only
      cases s.machine.accept lexeme.symbol with
      | none => rfl
      | some machine => exact congrArg (Step.accepted _) (behind_extended hlength machine)

theorem skipBlanks_extended (hrest : s.skipBlanks.rest ≠ []) :
    (s.extended q).skipBlanks = s.skipBlanks.extended q := by
  obtain ⟨machine, position, text⟩ := s
  obtain ⟨blanks, tail, rfl, hblanks, htail⟩ := exists_run isBlank text
  have htail' : Stops isBlank (tail ++ q) := by
    obtain ⟨c, cs, rfl⟩ : ∃ c cs, tail = c :: cs := by
      refine List.exists_cons_of_ne_nil ?_
      rwa [skipBlanks, dropWhile_append_stops hblanks htail] at hrest
    exact Stops.cons_iff.mpr (Stops.cons_iff.mp htail)
  simp only [skipBlanks, extended, List.append_assoc, takeWhile_append_stops hblanks htail,
    dropWhile_append_stops hblanks htail, takeWhile_append_stops hblanks htail',
    dropWhile_append_stops hblanks htail']

/-- Where more than blanks is left, a step does not see behind the text. -/
theorem step_extended (hs : Blind q s.rest) (hrest : s.skipBlanks.rest ≠ []) :
    (s.extended q).step = s.step.extended q := by
  have hskip : Blind q s.skipBlanks.rest := by
    rw [← List.takeWhile_append_dropWhile (p := isBlank) (l := s.rest)] at hs
    exact hs.of_append_right
  rw [step, skipBlanks_extended hrest, readToken_extended hskip hrest, step]

/-- **A scan goes on behind its text, unless it comes to an error before.** -/
theorem run_extended {s : Scan} (hs : Blind q s.rest) :
    (s.extended q).run = s.run.continued q := by
  -- in front of the end a step is the same; behind the last token the text gives out
  by_cases hrest : s.skipBlanks.rest = []
  · have hblank : ∀ c ∈ s.rest, isBlank c = true := List.dropWhile_eq_nil_iff.mp hrest
    rw [run_of_finished (step_of_all_blank hblank), extended, run_of_blanks hblank]
    rfl
  · have hstep := step_extended (q := q) hs hrest
    cases h : s.step with
    | finished position => exact absurd (readToken_finished h).1 hrest
    | malformed error =>
        rw [h] at hstep
        rw [run_of_malformed hstep, run_of_malformed h]
        rfl
    | refused token =>
        rw [h] at hstep
        rw [run_of_refused hstep, run_of_refused h]
        rfl
    | accepted token next =>
        obtain ⟨t, hadvances, -⟩ := advances_of_step h
        have hnext : Blind q next.rest := by
          rw [hadvances.rest_eq] at hs
          exact hs.of_append_right
        have _shorter := length_rest_of_step h
        rw [h] at hstep
        rw [run_of_accepted hstep, run_of_accepted h, run_extended hnext, Trace.continued_cons]
termination_by s.rest.length

end Scan

open Scan

variable {p : String}

theorem Trace.continued_of_error {t : Trace} {error : SyntaxError} (h : t.result = .error error) :
    t.continued q = t := by
  obtain ⟨tokens, ending⟩ := t
  cases ending with
  | finished machine position => cases h
  | malformed fault => rfl
  | refused token => rfl

theorem tokenize_append_eq {r : String} (hp : Blind r.toList p.toList) :
    tokenize (p ++ r) = ((Scan.start p).run.continued r.toList).result := by
  have hstart : Scan.start (p ++ r) = (Scan.start p).extended r.toList := by
    rw [Scan.start, String.toList_append]
    rfl
  rw [tokenize, hstart, run_extended hp]

/--
**A query is tokenized up to a delimiter, and then from there.**  If what ends in a
delimiter is refused, it is refused for the same reason with anything behind it.  If it is
accepted, the query with more behind the delimiter comes to what a scan of that text alone
comes to, starting with the machine that the first part has left: to the same error, or to
the same tokens behind those of the first part, at positions further on by its length.
-/
theorem tokenize_append {d : Char} (hlast : p.toList.getLast? = some d)
    (hd : isDelimiter d = true) (r : String) :
    (∀ error, tokenize p = .error error → tokenize (p ++ r) = .error error) ∧
      ∀ s, tokenize p = .ok s → ∃ machine,
        (Scan.start p).run.ending = .finished machine p.utf8ByteSize ∧
        (∀ error, (Scan.run ⟨machine, 0, r.toList⟩).result = .error error →
          tokenize (p ++ r) = .error (error.moved 0 p.utf8ByteSize)) ∧
        ∀ t, (Scan.run ⟨machine, 0, r.toList⟩).result = .ok t →
          ∃ u, tokenize (p ++ r) = .ok u ∧
            u.toList = s.toList.dropLast ++ t.toList.map (Token.moved 0 p.utf8ByteSize) := by
  have hp : Delimited p.toList := by
    intro c hc
    obtain rfl := Option.some.inj (hlast.symm.trans hc)
    exact hd
  rw [tokenize_append_eq hp.blind]
  refine ⟨?_, ?_⟩
  · intro error herror
    rw [Trace.continued_of_error herror]
    exact herror
  · intro s hs
    obtain ⟨tokens, machine, hrun, rfl⟩ := exists_run_of_tokenize hs
    have hback : Scan.run ⟨machine, p.utf8ByteSize, r.toList⟩ =
        (Scan.run ⟨machine, 0, r.toList⟩).moved 0 p.utf8ByteSize := by
      rw [← run_moved (Nat.zero_le _), Scan.moved, Nat.sub_zero, Nat.zero_add]
    refine ⟨machine, by rw [hrun], ?_, ?_⟩
    · intro error herror
      simp only [hrun, Trace.continued, hback]
      refine Trace.result_of_ending ?_ (Trace.result_moved herror)
      rfl
    · intro t ht
      obtain ⟨u, hu, htokens⟩ := Trace.exists_result_moved ht tokens
      refine ⟨u, ?_, ?_⟩
      · simp only [hrun, Trace.continued, hback]
        exact hu
      · rw [htokens, TokenStream.toList_close, List.dropLast_concat]

/-- What stands behind `and(a=null(),` is read as the arguments go on. -/
theorem tokenize_append_in_arguments :
    "and(a=null(),".toList.getLast? = some ',' ∧ isDelimiter ',' = true ∧
      tokenize "and(a=null()," = .ok (.close [⟨.operator, "and", 0⟩, ⟨.openParenthesis, "(", 3⟩,
        ⟨.string, "a", 4⟩, ⟨.operator, "eq", 5⟩, ⟨.nullConstant, "null()", 6⟩,
        ⟨.comma, ",", 12⟩] 13) ∧
      (Scan.run ⟨⟨.arguments, [.arguments]⟩, 0, "b)".toList⟩).result =
        .ok (.close [⟨.string, "b", 0⟩, ⟨.closeParenthesis, ")", 1⟩] 2) ∧
      ∃ u, tokenize ("and(a=null()," ++ "b)") = .ok u ∧
        u.toList = [⟨.operator, "and", 0⟩, ⟨.openParenthesis, "(", 3⟩, ⟨.string, "a", 4⟩,
          ⟨.operator, "eq", 5⟩, ⟨.nullConstant, "null()", 6⟩, ⟨.comma, ",", 12⟩,
          ⟨.string, "b", 13⟩, ⟨.closeParenthesis, ")", 14⟩, Token.sentinel 15] := by
  have hlast : "and(a=null(),".toList.getLast? = some ',' := by decide +kernel
  have hfront : tokenize "and(a=null()," = .ok (.close [⟨.operator, "and", 0⟩,
      ⟨.openParenthesis, "(", 3⟩, ⟨.string, "a", 4⟩, ⟨.operator, "eq", 5⟩,
      ⟨.nullConstant, "null()", 6⟩, ⟨.comma, ",", 12⟩] 13) := by
    decide +kernel
  have hmachine : (Scan.start "and(a=null(),").run.ending =
      .finished ⟨.arguments, [.arguments]⟩ 13 := by
    decide +kernel
  have hback : (Scan.run ⟨⟨.arguments, [.arguments]⟩, 0, "b)".toList⟩).result =
      .ok (.close [⟨.string, "b", 0⟩, ⟨.closeParenthesis, ")", 1⟩] 2) := by
    decide +kernel
  obtain ⟨machine, hending, -, hok⟩ := (tokenize_append hlast rfl "b)").2 _ hfront
  obtain ⟨rfl, -⟩ := Ending.finished.inj (hmachine.symm.trans hending)
  exact ⟨hlast, rfl, hfront, hback, hok _ hback⟩

end ResourceQuery

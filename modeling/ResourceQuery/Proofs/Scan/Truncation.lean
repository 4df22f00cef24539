/-
An error cuts a query at a clean boundary.

The position of an error is that of the first character no token was read from.  With the
query cut off there, the scan accepts what it accepted before the error, and then the
query ends: the tokens in front of the place are read as before (`Passes.apart`), and
nothing is awaited there, for where something is awaited no scan fails.
-/
import ResourceQuery.Proofs.Scan.Seam

namespace ResourceQuery

variable {error : SyntaxError}

/-- The error that a step comes to. -/
def Step.error? : Step → Option SyntaxError
  | .malformed error => some error
  | .refused token => some (SyntaxError.ofToken token)
  | _ => none

namespace Scan

variable {s : Scan}

/-- A step fails where it stands, in front of a character. -/
theorem readToken_error (h : s.readToken.error? = some error) :
    error.position = s.position ∧ s.rest ≠ [] := by
  unfold readToken at h
  split at h
  · cases h
  · rename_i c cs hrest
    have hne : s.rest ≠ [] := hrest ▸ List.cons_ne_nil c cs
    split at h
    · obtain rfl := Option.some.inj h
      exact ⟨rfl, hne⟩
    · split at h
      · obtain rfl := Option.some.inj h
        exact ⟨rfl, hne⟩
      · cases h

/-- Where a scan accepts no more, its error is that of the step. -/
theorem error?_of_not_accepted (hs : ∀ token next, s.step ≠ .accepted token next)
    (h : s.run.result = .error error) : s.step.error? = some error := by
  cases hstep : s.step with
  | finished position =>
      rw [run_of_finished hstep] at h
      cases h
  | malformed error =>
      rw [run_of_malformed hstep] at h
      exact congrArg some (Except.error.inj h)
  | refused token =>
      rw [run_of_refused hstep] at h
      exact congrArg some (Except.error.inj h)
  | accepted token next => exact absurd hstep (hs token next)

/-- A scan passes over its tiles up to its error, which lies behind them and the blanks
there. -/
theorem exists_last_of_error (h : s.run.result = .error error) :
    ∃ last, Passes s s.tiles last ∧ (∀ token next, last.step ≠ .accepted token next) ∧
      last.step.error? = some error ∧
      s.rest = (s.tiles.flatMap Tile.written ++ last.rest.takeWhile isBlank) ++
        last.skipBlanks.rest ∧
      error.position = s.position +
        byteLength (s.tiles.flatMap Tile.written ++ last.rest.takeWhile isBlank) := by
  obtain ⟨last, hpasses, hlast⟩ := exists_passes s
  have hending : s.run.ending = last.run.ending := by rw [hpasses.run]
  have herror := error?_of_not_accepted hlast (Trace.result_of_ending hending h)
  refine ⟨last, hpasses, hlast, herror, ?_, ?_⟩
  · have hrest : last.rest = last.rest.takeWhile isBlank ++ last.skipBlanks.rest :=
      List.takeWhile_append_dropWhile.symm
    rw [hpasses.rest_eq, List.append_assoc, ← hrest]
  · have hsize := hpasses.position
    rw [hpasses.rest_eq, byteLength_append] at hsize
    rw [(readToken_error herror).1, byteLength_append]
    show last.position + byteLength (last.rest.takeWhile isBlank) = _
    omega

end Scan

open Scan

end ResourceQuery

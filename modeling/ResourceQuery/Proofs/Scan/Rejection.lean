/-
What an error cites.

A query is refused where the scan accepts no more, and then either no lexeme can be read
there or the machine refuses the one that is.  `Rejection` says for what a place can be
refused, by what is written there, and what is cited for it: the kind and the text of the
fault, or those of the token.  At no place is there more than one reason, and an error cites
the one there is.
-/
import ResourceQuery.Proofs.Lexeme.Fault
import ResourceQuery.Proofs.Scan.Truncation

namespace ResourceQuery

open Lexeme (Faulty)

/-- What a machine is refused a text for, and the kind and the text that are cited for it. -/
inductive Rejection (machine : Machine) : List Char → Fault → Kind → String → Prop
  | faulty {cs : List Char} {fault : Fault} {kind : Kind} {value : String}
      (faulty : Faulty cs fault kind value) : Rejection machine cs fault kind value
  | unexpected {c : Char} {cs : List Char} {l : Lexeme} (read : Lexeme.read c cs = .ok l)
      (refused : machine.accept l.symbol = none) :
      Rejection machine (c :: cs) (.unexpected l.symbol.kind l.value) l.symbol.kind l.value

variable {machine : Machine} {c : Char} {cs : List Char} {fault fault' : Fault}
variable {kind kind' : Kind} {value value' : String} {error : SyntaxError} {s : Scan}

theorem Rejection.cites (h : Rejection machine cs fault kind value) :
    kind = fault.kind ∧ value = fault.value := by
  cases h with
  | faulty faulty => exact faulty.cites
  | unexpected => exact ⟨rfl, rfl⟩

/-- A text is refused for one reason only. -/
theorem Rejection.unique (h : Rejection machine (c :: cs) fault kind value)
    (h' : Rejection machine (c :: cs) fault' kind' value') : fault = fault' := by
  cases h with
  | faulty hfaulty =>
      cases h' with
      | faulty hfaulty' =>
          exact Except.error.inj ((hfaulty.read rfl).symm.trans (hfaulty'.read rfl))
      | unexpected hread' => cases (hfaulty.read rfl).symm.trans hread'
  | unexpected hread =>
      cases h' with
      | faulty hfaulty' => cases hread.symm.trans (hfaulty'.read rfl)
      | unexpected hread' =>
          obtain rfl := Except.ok.inj (hread.symm.trans hread')
          rfl

namespace Scan

theorem stops_isBlank_skipBlanks (s : Scan) : Stops isBlank s.skipBlanks.rest := by
  obtain ⟨blanks, rest, hrest, hblanks, hstops⟩ := exists_run isBlank s.rest
  rw [skipBlanks, hrest]
  simpa only [dropWhile_append_stops hblanks hstops] using hstops

theorem rejection_of_readToken (hblank : Stops isBlank s.rest)
    (h : s.readToken.error? = some error) :
    Rejection s.machine s.rest error.fault error.kind error.value := by
  unfold readToken at h
  split at h
  · cases h
  · rename_i c cs hrest
    rw [hrest] at hblank ⊢
    split at h
    · rename_i fault hread
      obtain rfl := Option.some.inj h
      exact .faulty ((Lexeme.faulty_iff_read (Stops.cons_iff.mp hblank)).mpr ⟨hread, rfl, rfl⟩)
    · rename_i l hread
      split at h
      · rename_i hrefused
        obtain rfl := Option.some.inj h
        exact .unexpected hread hrefused
      · cases h

end Scan

open Scan

/--
**An error cites what is wrong, and nothing else is wrong there.**  Behind what the scan has
passed over stands the text that is refused; it is refused for one reason, and what is cited
for that reason is the kind and the value of the error.
-/
theorem tokenize_error_cites {query : String} (h : tokenize query = .error error) :
    ∃ front back last fault, query.toList = front ++ back ∧ byteLength front = error.position ∧
      Passes (Scan.start query) (Scan.start query).tiles last ∧ last.skipBlanks.rest = back ∧
      ∀ other kind value, Rejection last.machine back other kind value ↔
        other = fault ∧ kind = error.kind ∧ value = error.value := by
  obtain ⟨last, hpasses, -, herror, hrest, hposition⟩ := exists_last_of_error h
  have hrejection : Rejection last.machine last.skipBlanks.rest error.fault error.kind
      error.value :=
    rejection_of_readToken last.stops_isBlank_skipBlanks herror
  obtain ⟨c, cs, hback⟩ := List.exists_cons_of_ne_nil (readToken_error herror).2
  refine ⟨_, _, last, error.fault, hrest, ?_, hpasses, rfl, fun other kind value => ⟨?_, ?_⟩⟩
  · rw [hposition]
    exact (Nat.zero_add _).symm
  · intro hother
    obtain ⟨hkind, hvalue⟩ := hother.cites
    rw [hback] at hrejection hother
    obtain rfl := hother.unique hrejection
    exact ⟨rfl, hkind, hvalue⟩
  · rintro ⟨rfl, rfl, rfl⟩
    exact hrejection

/-- The escapes of `eq(a,%C3%28)` are well formed, but decode to no text. -/
theorem tokenize_cites_undecodable :
    tokenize "eq(a,%C3%28)" = .error ⟨.undecodable "%C3%28", 5⟩ ∧
      ∃ front back last fault, "eq(a,%C3%28)".toList = front ++ back ∧ byteLength front = 5 ∧
        Passes (Scan.start "eq(a,%C3%28)") (Scan.start "eq(a,%C3%28)").tiles last ∧
        last.skipBlanks.rest = back ∧
        ∀ other kind value, Rejection last.machine back other kind value ↔
          other = fault ∧ kind = .string ∧ value = "%C3%28" := by
  have h : tokenize "eq(a,%C3%28)" = .error ⟨.undecodable "%C3%28", 5⟩ := by decide +kernel
  exact ⟨h, tokenize_error_cites h⟩

end ResourceQuery

/-
Line breaks behind a query.

The command drops the line breaks at the end of a query before it scans it, and a scan of the
whole query would have run into them.  What makes the two come to the same is that no lexeme is
read in view of blanks behind the query (`Lexeme.read_append_apart`), whether it is read or is
faulty: so the scan of the whole query is the scan of what is left of it, continued over blanks,
which adds nothing but their length.
-/
import ResourceQuery.Command.Query
import ResourceQuery.Proofs.Lexeme.Trailing
import ResourceQuery.Proofs.Scan.Composition

namespace ResourceQuery

open Scan

/-! ### Blanks behind a query -/

section Blanks

variable {blanks : String}

theorem blind_of_blanks {q cs : List Char} (h : ∀ c ∈ q, isBlank c = true) : Blind q cs := by
  have hapart : Apart q := fun c hc => h c (List.mem_of_mem_head? hc)
  exact fun _ _ _ _ => Lexeme.read_append_apart hapart

/-- Blanks behind a query change neither its error nor its tokens, but for the place of the
sentinel. -/
theorem tokenize_append_blanks (query : String) (h : ∀ c ∈ blanks.toList, isBlank c = true) :
    (∀ e, tokenize query = .error e → tokenize (query ++ blanks) = .error e) ∧
      ∀ s, tokenize query = .ok s → ∃ tokens, s = .close tokens query.utf8ByteSize ∧
        tokenize (query ++ blanks) = .ok (.close tokens (query ++ blanks).utf8ByteSize) := by
  rw [tokenize_append_eq (blind_of_blanks h)]
  refine ⟨?_, ?_⟩
  · intro e he
    rw [Trace.continued_of_error he]
    exact he
  · intro s hs
    obtain ⟨tokens, machine, hrun, rfl⟩ := exists_run_of_tokenize hs
    have hback : Scan.run ⟨machine, query.utf8ByteSize, blanks.toList⟩ =
        ⟨[], .finished machine (query.utf8ByteSize + byteLength blanks.toList)⟩ :=
      run_of_finished (step_of_all_blank h)
    refine ⟨tokens, rfl, ?_⟩
    simp only [hrun, Trace.continued, hback]
    rw [byteLength_toList, ← String.utf8ByteSize_append, List.append_nil]
    rfl

end Blanks

/-! ### What the command drops -/

namespace Command

variable {query breaks : String} {e : SyntaxError} {s : TokenStream}

theorem isBlank_of_isBreak {c : Char} (h : isBreak c = true) : isBlank c = true := by
  simp only [isBreak, Bool.or_eq_true, decide_eq_true_eq] at h
  rcases h with rfl | rfl <;> rfl

/-- A query is what the command makes of it, and line breaks behind that. -/
theorem exists_breaks (query : String) :
    ∃ breaks, query = trimBreaks query ++ breaks ∧ ∀ c ∈ breaks.toList, isBreak c = true := by
  refine ⟨String.ofList (query.toList.reverse.takeWhile isBreak).reverse, ?_, ?_⟩
  · rw [trimBreaks, ← String.ofList_append, ← List.reverse_append,
      List.takeWhile_append_dropWhile, List.reverse_reverse, String.ofList_toList]
  · intro c hc
    rw [String.toList_ofList, List.mem_reverse] at hc
    exact List.all_eq_true.mp List.all_takeWhile c hc

theorem isBreak_last_trimBreaks (query : String) :
    ∀ c ∈ (trimBreaks query).toList.getLast?, isBreak c = false := by
  intro c hc
  rw [trimBreaks, String.toList_ofList, List.getLast?_reverse] at hc
  have hnot := List.head?_dropWhile_not isBreak query.toList.reverse
  rw [hc] at hnot
  exact hnot

/-- More line breaks behind a query are dropped with the others. -/
theorem trimBreaks_append (h : ∀ c ∈ breaks.toList, isBreak c = true) :
    trimBreaks (query ++ breaks) = trimBreaks query := by
  rw [trimBreaks, String.toList_append, List.reverse_append,
    List.dropWhile_append_of_pos fun c hc => h c (List.mem_reverse.mp hc), trimBreaks]

theorem stream_append (h : ∀ c ∈ breaks.toList, isBreak c = true) :
    stream (query ++ breaks) = stream query := by
  rw [stream, trace, trimBreaks_append h]
  rfl

/-- The command fails on a query as a scan of it does, and otherwise has the same tokens, with
the sentinel where the query ends without its line breaks. -/
theorem stream_eq_of_tokenize (query : String) :
    (∀ e, tokenize query = .error e → stream query = .error (.badQuery e)) ∧
      ∀ s, tokenize query = .ok s → ∃ tokens, s = .close tokens query.utf8ByteSize ∧
        stream query = .ok (.close tokens (trimBreaks query).utf8ByteSize) := by
  obtain ⟨breaks, hquery, hbreaks⟩ := exists_breaks query
  obtain ⟨herror, hok⟩ := tokenize_append_blanks (trimBreaks query)
    fun c hc => isBlank_of_isBreak (hbreaks c hc)
  rw [← hquery] at herror hok
  have hstream : stream query = (tokenize (trimBreaks query)).mapError .badQuery := rfl
  cases h : tokenize (trimBreaks query) with
  | error fault =>
      rw [herror fault h, hstream, h]
      refine ⟨?_, nofun⟩
      rintro e ⟨⟩
      rfl
  | ok front =>
      obtain ⟨tokens, rfl, htokens⟩ := hok front h
      rw [htokens, hstream, h]
      refine ⟨nofun, ?_⟩
      rintro s ⟨⟩
      exact ⟨tokens, rfl, rfl⟩

end Command

end ResourceQuery

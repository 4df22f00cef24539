/-
The command agrees with the scan of a query.

However a query gets to the command, behind two hyphens or through the standard input, and
whatever else the arguments ask for, checking it and printing its tokens both come to what
`stream` comes to.  Two hyphens make what stands behind them the query, since the arguments in
front of them are read as they would be without (`readSettings_separator`).

What is printed is laid down by `Printed`, one text for each format, and says which tokens they
are: no other tokens have the same listing, and JSON in either layout is read back as them.
-/
import ResourceQuery.Command.Run
import ResourceQuery.Proofs.Command.LineBreaks
import ResourceQuery.Proofs.Literal.Encoding
import ResourceQuery.Proofs.TokenStream.Interchange
import ResourceQuery.Proofs.TokenStream.Listing

namespace ResourceQuery.Command

variable {query : String} {args options : List String} {input : Option ByteArray}
  {format : Format} {pretty : Bool}

/-! ### Two hyphens -/

theorem eq_of_ofString_separator {arg : String} (h : Argument.ofString arg = .separator) :
    arg = "--" := by
  unfold Argument.ofString at h
  split at h
  · rename_i hchars
    exact String.toList_inj.mp hchars
  all_goals cases h

/-- Where a first part is followed by another that succeeds, it can be followed by one that
agrees with it. -/
theorem bind_of_bind {ε α β : Type} {x : Except ε α} {f g : α → Except ε β} {b : β}
    {y : Except ε β} (h : x >>= f = .ok b) (hfg : ∀ a, f a = .ok b → g a = y) : x >>= g = y := by
  cases x with
  | error e => cases h
  | ok a => exact hfg a h

/-- Arguments in front of two hyphens are read as they are alone, and those behind are no
options. -/
theorem readSettings_separator {known : List Flag} {limit : Nat} {s st : Settings}
    {pending : Bool} (hseparator : "--" ∉ options)
    (h : readSettings known limit s pending options = .ok st) :
    readSettings known limit s pending (options ++ "--" :: args) = st.addOperands limit args := by
  have hhyphens : Argument.ofString "--" = .separator := rfl
  induction options generalizing s pending with
  | nil =>
      cases pending with
      | true => cases h
      | false =>
          obtain rfl := Except.ok.inj h
          simp [readSettings, hhyphens]
  | cons arg options ih =>
      rw [List.mem_cons, not_or] at hseparator
      rw [List.cons_append]
      rw [readSettings.eq_def] at h ⊢
      -- whatever the argument is, what it says is known, and the others are read behind it
      cases harg : Argument.ofString arg with
      | separator => exact absurd (eq_of_ofString_separator harg).symm hseparator.1
      | plain value =>
          simp only [harg] at h ⊢
          cases pending with
          | true =>
              exact bind_of_bind h fun _ hrest => ih hseparator.2 hrest
          | false =>
              exact bind_of_bind h fun _ hrest => ih hseparator.2 hrest
      | word name value =>
          simp only [harg] at h ⊢
          cases pending with
          | true => cases h
          | false =>
              exact bind_of_bind h fun _ hrest => ih hseparator.2 hrest
      | letters cs =>
          simp only [harg] at h ⊢
          cases pending with
          | true => cases h
          | false =>
              exact bind_of_bind h fun _ hrest => ih hseparator.2 hrest

/-! ### How a query gets to the command -/

/-- The arguments behind a task, and the standard input, that make a query the one to work
on. -/
inductive Given (query : String) : (args : List String) → (input : Option ByteArray) → Prop
  /-- The query stands behind two hyphens. -/
  | argument (input : Option ByteArray) : Given query ["--", query] input
  /-- The query is the standard input. -/
  | input : Given query [] (some query.toByteArray)

/-- Options that say how tokens are printed, and nothing else. -/
structure PrintOptions (options : List String) (format : Format) (pretty : Bool) : Prop where
  no_separator : "--" ∉ options
  read : Invocation.ofArguments ("tokenize" :: options) = .ok ⟨.tokenize none format pretty, false⟩

theorem ofArguments_tokenize (args : List String) :
    Invocation.ofArguments ("tokenize" :: args) = do
      let s ← readSettings Verb.tokenize.flags 1 .empty false args
      return ⟨.tokenize s.operands.head? (s.format.getD .text) (s.flags.contains .pretty),
        s.flags.contains .verbose⟩ :=
  rfl

/-- Behind options that name no query, two hyphens and a query name that query. -/
theorem PrintOptions.ofArguments (h : PrintOptions options format pretty) :
    Invocation.ofArguments ("tokenize" :: (options ++ ["--", query])) =
      .ok ⟨.tokenize (some query) format pretty, false⟩ := by
  have hread := h.read
  rw [ofArguments_tokenize] at hread ⊢
  cases hsettings : readSettings Verb.tokenize.flags 1 .empty false options with
  | error stop =>
      rw [hsettings] at hread
      cases hread
  | ok s =>
      rw [hsettings] at hread
      rw [readSettings_separator h.no_separator hsettings]
      obtain ⟨flags, chosen, operands⟩ := s
      obtain ⟨htask, hverbose⟩ := Invocation.mk.inj (Except.ok.inj hread)
      obtain ⟨hoperands, hformat, hpretty⟩ := Task.tokenize.inj htask
      obtain rfl : operands = [] := List.head?_eq_none_iff.mp hoperands
      subst hformat hpretty
      exact congrArg (fun verbose => Except.ok (Invocation.mk _ verbose)) hverbose

theorem Given.checks (h : Given query args input) :
    ∃ given, Invocation.ofArguments ("check" :: args) = .ok ⟨.check given, false⟩ ∧
      chooseQuery given input = .ok query := by
  cases h with
  | argument => exact ⟨some query, rfl, rfl⟩
  | input =>
      refine ⟨none, rfl, ?_⟩
      rw [chooseQuery, fromUTF8?_eq_some_iff.mpr rfl]

theorem Given.prints (h : Given query args input) (hoptions : PrintOptions options format pretty) :
    ∃ given, Invocation.ofArguments ("tokenize" :: (options ++ args)) =
        .ok ⟨.tokenize given format pretty, false⟩ ∧
      chooseQuery given input = .ok query := by
  cases h with
  | argument => exact ⟨some query, hoptions.ofArguments, rfl⟩
  | input =>
      refine ⟨none, ?_, ?_⟩
      · rw [List.append_nil]
        exact hoptions.read
      · rw [chooseQuery, fromUTF8?_eq_some_iff.mpr rfl]

/-! ### What the command leaves behind -/

/-- What a task leaves behind that is not reported on. -/
def Outcome.ofTask : Except Failure String → Outcome
  | .ok output => ⟨0, output, ""⟩
  | .error failure => ⟨1, "", failure.message ++ "\n"⟩

theorem run_eq {task : Task} (h : Invocation.ofArguments args = .ok ⟨task, false⟩) :
    run args input = .ofTask (perform input task) := by
  rw [run, h]
  cases hperform : perform input task with
  | ok output =>
    simp [Invocation.outcome, hperform, Outcome.ofTask]
  | error failure =>
    simp [Invocation.outcome, hperform, Outcome.ofTask]

theorem Given.run_check (h : Given query args input) :
    run ("check" :: args) input =
      .ofTask ((check query).map fun _ => "Syntax is valid\n") := by
  obtain ⟨given, hread, hquery⟩ := h.checks
  rw [run_eq hread, perform, hquery]
  rfl

theorem Given.run_tokenize (h : Given query args input)
    (hoptions : PrintOptions options format pretty) :
    run ("tokenize" :: (options ++ args)) input =
      .ofTask ((tokens query format pretty).map endLine) := by
  obtain ⟨given, hread, hquery⟩ := h.prints hoptions
  rw [run_eq hread, perform, hquery]
  rfl

/-! ### What is printed -/

/-- What is printed of some tokens: their listing, or their array in one of its layouts. -/
inductive Printed (s : TokenStream) : Format → (pretty : Bool) → (output : String) → Prop
  | listing (pretty : Bool) : Printed s .text pretty s.toListing
  | compact : Printed s .json false (s.toJson.render .compact)
  | pretty : Printed s .json true (s.toJson.render .pretty)

/-- An output with a line break at its end; a listing has one of its own. -/
def withBreak : Format → String → String
  | .text, output => output
  | .json, output => output ++ "\n"

variable {s : TokenStream} {output : String}

theorem printed_present (s : TokenStream) (format : Format) (pretty : Bool) :
    Printed s format pretty (present s format pretty) := by
  cases format with
  | text => exact .listing pretty
  | json =>
      cases pretty with
      | false => exact .compact
      | true => exact .pretty

theorem Printed.layout (h : Printed s .json pretty output) :
    ∃ layout, output = s.toJson.render layout := by
  cases h with
  | compact => exact ⟨_, rfl⟩
  | pretty => exact ⟨_, rfl⟩

theorem getLast?_print_array (layout : Json.Layout) (depth : Nat) (items : List Json) :
    (Json.print layout depth (.array items)).getLast? = some ']' := by
  cases items with
  | nil => rfl
  | cons item items => rw [Json.print, List.getLast?_concat]

theorem Printed.endLine_eq (h : Printed s format pretty output) :
    endLine output = withBreak format output := by
  cases format with
  | text =>
      obtain ⟨⟩ := h
      rw [endLine, s.getLast?_toListing, if_pos rfl, withBreak]
  | json =>
      obtain ⟨layout, rfl⟩ := h.layout
      have hlast : (s.toJson.render layout).toList.getLast? = some ']' := by
        rw [Json.render, String.toList_ofList]
        exact getLast?_print_array _ _ _
      rw [endLine, hlast, if_neg (by decide), withBreak]

/-! ### The command and the scan -/

/-- What the command makes of a query, by what a scan of it comes to. -/
structure Agrees (query : String) : Prop where
  /-- What is dropped are the line breaks at the end, and all of them. -/
  trimmed : ∃ breaks, query = trimBreaks query ++ breaks ∧
    (∀ c ∈ breaks.toList, isBreak c = true) ∧
      ∀ c ∈ (trimBreaks query).toList.getLast?, isBreak c = false
  /-- What is refused is refused for the same reason. -/
  refused : ∀ e, tokenize query = .error e → check query = .error (.badQuery e) ∧
    ∀ format pretty, tokens query format pretty = .error (.badQuery e)
  /-- What is accepted has tokens, and the sentinel behind them at the end of the query. -/
  closed : ∀ s, tokenize query = .ok s → ∃ front, s = .close front query.utf8ByteSize
  /-- The same tokens are printed, with the sentinel in front of what is dropped. -/
  accepted : ∀ front, tokenize query = .ok (.close front query.utf8ByteSize) →
    check query = .ok () ∧ ∀ format pretty, ∃ output, tokens query format pretty = .ok output ∧
      Printed (.close front (trimBreaks query).utf8ByteSize) format pretty output
  /-- What is printed as a listing is the listing of these tokens, and of no others. -/
  listed : ∀ front, tokenize query = .ok (.close front query.utf8ByteSize) →
    ∀ pretty, ∃ output, tokens query .text pretty = .ok output ∧
      ∀ t : TokenStream, t.toListing = output ↔
        t.toList = front ++ [Token.sentinel (trimBreaks query).utf8ByteSize]
  /-- What is printed in JSON is read back as these tokens, if words hold their positions. -/
  read_back : ∀ front, tokenize query = .ok (.close front query.utf8ByteSize) →
    query.utf8ByteSize < Json.wordLimit → ∀ pretty, ∃ output items,
      tokens query .json pretty = .ok output ∧ Json.parse? output = some (.array items) ∧
        items.map Token.ofJson =
          (front ++ [Token.sentinel (trimBreaks query).utf8ByteSize]).map .ok
  /-- More line breaks make no difference. -/
  breaks : ∀ more : String, (∀ c ∈ more.toList, isBreak c = true) →
    check (query ++ more) = check query ∧
      ∀ format pretty, tokens (query ++ more) format pretty = tokens query format pretty
  /-- A query that is refused fails either task, with nothing but the error. -/
  fails : ∀ e, tokenize query = .error e → ∀ args input, Given query args input →
    run ("check" :: args) input = ⟨1, "", "Syntax error: " ++ e.message ++ "\n"⟩ ∧
      ∀ options format pretty, PrintOptions options format pretty →
        run ("tokenize" :: (options ++ args)) input =
          ⟨1, "", "Syntax error: " ++ e.message ++ "\n"⟩
  /-- A query that is accepted passes either task, with nothing but what is printed. -/
  succeeds : ∀ front, tokenize query = .ok (.close front query.utf8ByteSize) →
    ∀ args input, Given query args input →
      run ("check" :: args) input = ⟨0, "Syntax is valid\n", ""⟩ ∧
        ∀ options format pretty, PrintOptions options format pretty →
          ∃ output, tokens query format pretty = .ok output ∧
            Printed (.close front (trimBreaks query).utf8ByteSize) format pretty output ∧
            run ("tokenize" :: (options ++ args)) input = ⟨0, withBreak format output, ""⟩

variable {e : SyntaxError} {front : List Token}

theorem refused_of_tokenize (h : tokenize query = .error e) :
    check query = .error (.badQuery e) ∧
      ∀ format pretty, tokens query format pretty = .error (.badQuery e) := by
  have hstream := (stream_eq_of_tokenize query).1 e h
  rw [check, hstream]
  refine ⟨rfl, fun format pretty => ?_⟩
  rw [tokens, hstream]
  rfl

theorem closed_of_tokenize (h : tokenize query = .ok s) :
    ∃ front, s = .close front query.utf8ByteSize := by
  obtain ⟨front, hclose, -⟩ := (stream_eq_of_tokenize query).2 s h
  exact ⟨front, hclose⟩

theorem stream_of_tokenize (h : tokenize query = .ok (.close front query.utf8ByteSize)) :
    stream query = .ok (.close front (trimBreaks query).utf8ByteSize) := by
  obtain ⟨front', hclose, hstream⟩ := (stream_eq_of_tokenize query).2 _ h
  have hlist := congrArg TokenStream.toList hclose
  rw [TokenStream.toList_close, TokenStream.toList_close] at hlist
  rwa [(List.append_inj' hlist rfl).1]

theorem tokens_of_tokenize (h : tokenize query = .ok (.close front query.utf8ByteSize))
    (format : Format) (pretty : Bool) :
    tokens query format pretty =
      .ok (present (.close front (trimBreaks query).utf8ByteSize) format pretty) := by
  rw [tokens, stream_of_tokenize h]
  rfl

theorem check_of_tokenize (h : tokenize query = .ok (.close front query.utf8ByteSize)) :
    check query = .ok () := by
  rw [check, stream_of_tokenize h]
  rfl

/-- The tokens are those of a scan of what is left of the query, which is not longer. -/
theorem readsBack_of_tokenize (h : tokenize query = .ok (.close front query.utf8ByteSize))
    (hsize : query.utf8ByteSize < Json.wordLimit) :
    (TokenStream.close front (trimBreaks query).utf8ByteSize).ReadsBack := by
  have hstream : stream query = (tokenize (trimBreaks query)).mapError .badQuery := rfl
  have htrimmed : tokenize (trimBreaks query) =
      .ok (.close front (trimBreaks query).utf8ByteSize) := by
    have hclose := stream_of_tokenize h
    rw [hstream] at hclose
    cases hscan : tokenize (trimBreaks query) with
    | error e =>
        rw [hscan] at hclose
        cases hclose
    | ok t =>
        rw [hscan] at hclose
        exact congrArg Except.ok (Except.ok.inj hclose)
  have hle : (trimBreaks query).utf8ByteSize ≤ query.utf8ByteSize := by
    obtain ⟨breaks, hquery, -⟩ := exists_breaks query
    rw [hquery, String.utf8ByteSize_append, ← hquery]
    exact Nat.le_add_right _ _
  refine TokenStream.readsBack_of_positions fun t ht => ?_
  have hposition := position_le_of_tokenize htrimmed t ht
  omega

/--
**The command agrees with the scan of a query.**  Checking a query and printing its tokens
succeed where a scan of it does and fail with its error where it fails; the line breaks at
the end of the query, however many, show in nothing but the place of the sentinel.
-/
theorem command_agrees (query : String) : Agrees query where
  trimmed := by
    obtain ⟨breaks, hquery, hbreaks⟩ := exists_breaks query
    exact ⟨breaks, hquery, hbreaks, isBreak_last_trimBreaks query⟩
  refused := fun e => refused_of_tokenize
  closed := fun s => closed_of_tokenize
  accepted := by
    intro front h
    refine ⟨check_of_tokenize h, fun format pretty => ?_⟩
    exact ⟨_, tokens_of_tokenize h format pretty, printed_present _ format pretty⟩
  listed := by
    intro front h pretty
    refine ⟨_, tokens_of_tokenize h .text pretty, fun t => ?_⟩
    rw [← TokenStream.toList_close]
    constructor
    · exact TokenStream.toListing_inj
    · intro hlist
      rw [present, TokenStream.toListing, hlist, TokenStream.toListing]
  read_back := by
    intro front h hsize pretty
    obtain ⟨items, hparse, -, hitems⟩ := readsBack_of_tokenize h hsize
    obtain ⟨layout, hlayout⟩ := (printed_present _ .json pretty).layout
    refine ⟨_, items, tokens_of_tokenize h .json pretty, ?_, ?_⟩
    · rw [hlayout]
      exact hparse layout
    · rw [hitems, TokenStream.toList_close]
  breaks := by
    intro more hmore
    rw [check, stream_append hmore]
    refine ⟨rfl, fun format pretty => ?_⟩
    rw [tokens, stream_append hmore]
    rfl
  fails := by
    intro e h args input hgiven
    obtain ⟨hcheck, htokens⟩ := refused_of_tokenize h
    refine ⟨by rw [hgiven.run_check, hcheck]; rfl, fun options format pretty hoptions => ?_⟩
    rw [hgiven.run_tokenize hoptions, htokens]
    rfl
  succeeds := by
    intro front h args input hgiven
    refine ⟨by rw [hgiven.run_check, check_of_tokenize h]; rfl,
      fun options format pretty hoptions => ?_⟩
    have hprinted := printed_present (.close front (trimBreaks query).utf8ByteSize) format pretty
    refine ⟨_, tokens_of_tokenize h format pretty, hprinted, ?_⟩
    rw [hgiven.run_tokenize hoptions, tokens_of_tokenize h, ← hprinted.endLine_eq]
    rfl

/-- A group that is left open, with a line break behind it, given behind two hyphens and printed
in JSON. -/
theorem command_agrees_in_json :
    PrintOptions ["-f", "json", "-p"] .json true ∧
      tokenize "(\n" = .ok (.close [⟨.openParenthesis, "(", 0⟩] 2) ∧
      run ["check", "--", "(\n"] none = ⟨0, "Syntax is valid\n", ""⟩ ∧
      run ["tokenize", "-f", "json", "-p", "--", "(\n"] none =
        ⟨0, "[\n" ++
          "  \x7b\n" ++
          "    \"position\": 0,\n    \"type\": \"T_OPEN_PARENTHESIS\",\n    \"value\": \"(\"\n" ++
          "  \x7d,\n  \x7b\n" ++
          "    \"position\": 1,\n    \"type\": \"T_END\",\n    \"value\": \"\"\n" ++
          "  \x7d\n]\n", ""⟩ := by
  have hoptions : PrintOptions ["-f", "json", "-p"] .json true :=
    ⟨by decide, by decide +kernel⟩
  have hscan : tokenize "(\n" = .ok (.close [⟨.openParenthesis, "(", 0⟩] 2) := by
    decide +kernel
  obtain ⟨hcheck, hprint⟩ := (command_agrees "(\n").succeeds _ hscan _ none (.argument none)
  obtain ⟨output, -, hprinted, hrun⟩ := hprint _ _ _ hoptions
  obtain ⟨⟩ := hprinted
  refine ⟨hoptions, hscan, hcheck, hrun.trans ?_⟩
  decide +kernel

end ResourceQuery.Command

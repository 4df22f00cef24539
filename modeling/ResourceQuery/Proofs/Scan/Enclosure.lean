/-
Complete queries may be put in parentheses, into calls, and one behind another.

A query is complete if it is accepted with its parentheses matched and ends behind an
expression.  In front of a closing parenthesis or a connective its lexemes are read as at
the end of the query, for what a closing parenthesis could change is a `(` at the end of the
query, and behind that no expression ends.  And as it closes no parenthesis but its own,
the machine does inside an enclosure what it does outside (`Passes.inside`).
-/
import ResourceQuery.Proofs.Grammar.Enclosure
import ResourceQuery.Proofs.Lexeme.Name
import ResourceQuery.Proofs.Scan.Composition
import ResourceQuery.Proofs.Scan.Escaping
import ResourceQuery.Proofs.Scan.Seam

namespace ResourceQuery

open Scan

/-- The query is accepted, every parenthesis matches another, and an expression has ended
where the query ends. -/
structure Complete (query : String) (s : TokenStream) : Prop where
  accepted : tokenize query = .ok s
  balanced : Balanced (s.toList.map Token.kind)
  ends : ∃ machine position, (start query).run.ending = .finished machine position ∧
    machine.context = .afterExpression

namespace Scan

variable {s next last mid : Scan} {t : Tile} {ts us : List Tile} {v : List Char} {e : Enclosure}
  {depth : Nat}

/-- The scan inside an enclosure. -/
def inside (e : Enclosure) (s : Scan) : Scan :=
  { s with machine := s.machine.inside e }

/-! ### Inside an enclosure -/

/-- As many parentheses are open as the tokens leave open. -/
theorem Passes.length_frames (h : Passes s ts last)
    (hdepth : depthBehind s.machine.frames.length (ts.map (·.token.kind)) = some depth) :
    last.machine.frames.length = depth := by
  induction h with
  | nil => exact Option.some.inj hdepth
  | cons step _ ih =>
      obtain ⟨-, -, accepted⟩ := step
      exact ih ((Machine.move_of_accept accepted).depthBehind hdepth).1

/-- What closes no parenthesis but its own is passed over inside an enclosure as outside. -/
theorem Passes.inside (h : Passes s ts last)
    (hdepth : depthBehind s.machine.frames.length (ts.map (·.token.kind)) = some depth) :
    Passes (s.inside e) ts (last.inside e) := by
  induction h with
  | nil => exact .nil
  | cons step _ ih =>
      obtain ⟨blank, reading, accepted⟩ := step
      have hmove := Machine.move_of_accept accepted
      obtain ⟨hnext, hclose⟩ := hmove.depthBehind hdepth
      exact .cons (.mk blank reading (Machine.accept_of_move (hmove.inside hclose))) (ih hnext)

/-! ### In front of a delimiter -/

/-- What stands in front of a delimiter is passed over as at the end of the query. -/
theorem Passes.extended (h : Passes s ts last) (hblank : ∀ c ∈ last.rest, isBlank c = true)
    (hv : Closed v) (hclose : v.head? = some ')' → s.rest.getLast? ≠ some '(') :
    Passes (s.extended v) ts (last.extended v) := by
  unfold Scan.extended
  rw [h.rest_eq, List.append_assoc]
  refine h.with_rest ?_
  intro vs us u place next l hts hstep hsteps reading hkind _
  rw [← List.append_assoc, ← hsteps.rest_eq]
  refine reading.append_closed hv ?_ ?_
  · intro hhead
    have htext : s.rest = (vs.flatMap Tile.written ++ u.blanks) ++ (u.raw ++ next.rest) := by
      rw [h.rest_eq, hts, hsteps.rest_eq]
      simp [Tile.written]
    have hne : u.raw ++ next.rest ≠ [] := by
      obtain ⟨c, cs, hraw, -⟩ := reading.exists_cons
      simp [hraw]
    rw [← List.getLast?_append_of_ne_nil _ hne, ← htext]
    exact hclose hhead
  · intro hcolon
    rw [hkind]
    exact hsteps.typeName_of_colon hstep hblank hcolon

/-! ### Where an expression has ended -/

/-- No expression ends behind an opening parenthesis. -/
theorem Advances.getLast?_ne (h : Advances s t next)
    (hnext : next.machine.context = .afterExpression) : t.raw.getLast? ≠ some '(' := by
  intro hlast
  obtain ⟨-, reading, accepted⟩ := h
  obtain ⟨kind, hsymbol, hkind⟩ := reading.of_last hlast rfl rfl (by decide)
  rcases hkind with hkind | hkind
  · obtain rfl := Option.some.inj hkind
    rw [hsymbol] at accepted
    rw [Machine.eq_next_of_accept accepted] at hnext
    exact Machine.opened_context_ne _ hnext
  · cases hkind

/-- Where an expression has ended, no opening parenthesis is last in what is passed over, nor
a closing one first. -/
theorem Passes.head?_and_getLast?_ne {query : String} (h : Passes (start query) ts last)
    (hblank : ∀ c ∈ last.rest, isBlank c = true)
    (hlast : last.machine.context = .afterExpression) :
    query.toList.head? ≠ some ')' ∧ query.toList.getLast? ≠ some '(' := by
  have htext : query.toList = ts.flatMap Tile.written ++ last.rest := h.rest_eq
  refine ⟨?_, ?_⟩
  · intro hhead
    obtain ⟨cs, hcs⟩ := List.head?_eq_some_iff.mp hhead
    have hstep : (start query).step = .refused ⟨.closeParenthesis, ")", 0⟩ := by
      rw [start, hcs, show ')' :: cs = [] ++ ')' :: cs from rfl,
        step_of_blanks (by simp) (Stops.cons_iff.mpr rfl)]
      rfl
    cases h with
    | nil => cases hlast
    | cons step _ => cases hstep.symm.trans step.step
  · rw [htext]
    intro hparenthesis
    by_cases hnil : last.rest = []
    · rw [hnil, List.append_nil] at hparenthesis
      rcases h.last_cases with ⟨rfl, -⟩ | ⟨us, t, place, rfl, -, hstep⟩
      · cases hparenthesis
      · rw [List.flatMap_append, List.flatMap_singleton, hstep.getLast?_append] at hparenthesis
        exact hstep.getLast?_ne hlast hparenthesis
    · rw [List.getLast?_append_of_ne_nil _ hnil] at hparenthesis
      cases hblank _ (List.mem_of_getLast? hparenthesis)

end Scan

variable {query : String} {s : TokenStream} {ts : List Tile} {last : Scan}

theorem complete_of_passes (h : Passes (start query) ts last)
    (hblank : ∀ c ∈ last.rest, isBlank c = true) (hbalanced : Balanced (ts.map (·.token.kind)))
    (hends : last.machine.context = .afterExpression) :
    Complete query (.close (ts.map Tile.token) query.utf8ByteSize) where
  accepted := tokenize_of_passes h hblank
  balanced := by
    rw [TokenStream.toList_close, List.map_append, List.map_map]
    exact balanced_sentinel_iff.mpr hbalanced
  ends := by
    rw [h.run_of_blank hblank]
    exact ⟨_, _, rfl, hends⟩

theorem Complete.exists_passes (h : Complete query s) :
    s = .close ((start query).tiles.map Tile.token) query.utf8ByteSize ∧
      Balanced ((start query).tiles.map (·.token.kind)) ∧
        ∃ last, Passes (start query) (start query).tiles last ∧
          (∀ c ∈ last.rest, isBlank c = true) ∧ last.machine = ⟨.afterExpression, []⟩ := by
  obtain ⟨rfl, last, hpasses, hblank⟩ := tokenize_eq_ok_iff.mp h.accepted
  have hbalanced : Balanced ((start query).tiles.map (·.token.kind)) := by
    have := h.balanced
    rw [TokenStream.toList_close, List.map_append, List.map_map] at this
    exact balanced_sentinel_iff.mp this
  refine ⟨rfl, hbalanced, last, hpasses, hblank, ?_⟩
  obtain ⟨machine, position, hending, hcontext⟩ := h.ends
  rw [hpasses.run_of_blank hblank] at hending
  obtain ⟨rfl, -⟩ := Ending.finished.inj hending
  have hframes := List.length_eq_zero_iff.mp (hpasses.length_frames hbalanced)
  rw [← hcontext, ← hframes]

/-- A complete query is passed over inside an enclosure, up to behind the parenthesis that
closes it. -/
theorem Complete.passes_inside (h : Complete query s) (e : Enclosure) (k : Nat) :
    ∃ blanks, Passes ⟨Machine.start.inside e, k, query.toList ++ [')']⟩
      ((start query).tiles.map (Tile.moved 0 k) ++
        [⟨blanks, [')'], ⟨.closeParenthesis, ")", query.utf8ByteSize + k⟩⟩])
      ⟨⟨.afterExpression, []⟩, query.utf8ByteSize + k + 1, []⟩ := by
  obtain ⟨-, hbalanced, last, hpasses, hblank, hmachine⟩ := h.exists_passes
  have hends := hpasses.head?_and_getLast?_ne hblank (by rw [hmachine])
  have hclosed : Closed [')'] := Closed.cons rfl []
  have hsize : last.position + byteLength last.rest = query.utf8ByteSize := by
    rw [hpasses.position, size_start]
  have hfront := ((hpasses.extended hblank hclosed fun _ => hends.2).inside
    (e := e) hbalanced).moved (b := k) (Nat.zero_le _)
  have hstart : (((start query).extended [')']).inside e).moved 0 k =
      ⟨Machine.start.inside e, k, query.toList ++ [')']⟩ := by
    simp [Scan.moved, Scan.inside, Scan.extended, Scan.start]
  rw [hstart] at hfront
  obtain ⟨machine, position, blanks⟩ := last
  obtain rfl : machine = ⟨.afterExpression, []⟩ := hmachine
  have hposition : query.utf8ByteSize + k = position - 0 + k + byteLength blanks := by
    rw [← hsize]
    simp only
    omega
  have hmove : Machine.Move (Machine.inside e ⟨.afterExpression, []⟩) (.plain .closeParenthesis)
      ⟨.afterExpression, []⟩ := .close (Machine.between_context (.inr rfl))
  rw [hposition]
  exact ⟨blanks, hfront.append
    (.cons (.mk hblank (.punctuation rfl) (Machine.accept_of_move hmove)) .nil)⟩

/-- A complete query is complete behind what opens an enclosure, and in front of the
parenthesis that closes it. -/
theorem Complete.enclosed (h : Complete query s) {e : Enclosure} {k : Nat} {whole : String}
    (hopen : Passes (start whole) ts ⟨Machine.start.inside e, k, query.toList ++ [')']⟩)
    (hkinds : Balanced (ts.map (·.token.kind) ++ [.closeParenthesis])) :
    ∃ u, Complete whole u ∧ u.toList =
      ts.map Tile.token ++ (s.toList.dropLast.map (Token.moved 0 k) ++
        [⟨.closeParenthesis, ")", query.utf8ByteSize + k⟩,
          Token.sentinel (query.utf8ByteSize + k + 1)]) := by
  obtain ⟨rfl, hbalanced, -⟩ := h.exists_passes
  obtain ⟨blanks, hback⟩ := h.passes_inside e k
  have hpasses := hopen.append hback
  have hsize : whole.utf8ByteSize = query.utf8ByteSize + k + 1 := by
    have := hpasses.position
    rw [size_start] at this
    simpa using this.symm
  refine ⟨_, complete_of_passes hpasses (by simp) ?_ rfl, ?_⟩
  · have hall := hkinds.insert hbalanced
    simpa [Function.comp_def, Tile.moved, Token.moved] using hall
  · rw [TokenStream.toList_close, TokenStream.toList_close, hsize, List.dropLast_concat]
    simp [Tile.moved]

theorem Complete.head?_ne (h : Complete query s) :
    (query.toList ++ [')']).head? ≠ some ')' := by
  obtain ⟨-, -, last, hpasses, hblank, hmachine⟩ := h.exists_passes
  have hends := hpasses.head?_and_getLast?_ne hblank (by rw [hmachine])
  have hne : query.toList ≠ [] := by
    intro hnil
    have htext : query.toList = (start query).tiles.flatMap Tile.written ++ last.rest :=
      hpasses.rest_eq
    rw [hnil, eq_comm, List.append_eq_nil_iff] at htext
    have hlast := hpasses.eq_of_written_eq_nil htext.1
    rw [← hlast] at hmachine
    cases hmachine
  obtain ⟨c, cs, hcs⟩ := List.exists_cons_of_ne_nil hne
  rw [hcs] at hends ⊢
  exact hends.1

/-- The connectives, and their kinds. -/
def IsConnective (c : Char) (kind : Kind) : Prop :=
  c = '&' ∧ kind = .ampersand ∨ c = '|' ∧ kind = .verticalBar

/-- A complete query is passed over in front of a connective, and behind that the scan stands
as at the start of a query. -/
theorem Complete.passes_connective (h : Complete query s) {c : Char} {kind : Kind}
    (hc : IsConnective c kind) (back : List Char) :
    ∃ blanks, Passes ((start query).extended (c :: back))
      ((start query).tiles ++
        [⟨blanks, [c], ⟨kind, String.singleton c, query.utf8ByteSize⟩⟩])
      ⟨.start, query.utf8ByteSize + 1, back⟩ := by
  obtain ⟨-, -, last, hpasses, hblank, hmachine⟩ := h.exists_passes
  have hclosed : Closed (c :: back) := by
    rcases hc with ⟨rfl, -⟩ | ⟨rfl, -⟩ <;> exact Closed.cons rfl back
  have hclose : (c :: back).head? = some ')' → (start query).rest.getLast? ≠ some '(' := by
    rcases hc with ⟨rfl, -⟩ | ⟨rfl, -⟩ <;> exact nofun
  have hfront := hpasses.extended hblank hclosed hclose
  have hsize : last.position + byteLength last.rest = query.utf8ByteSize := by
    rw [hpasses.position, size_start]
  obtain ⟨machine, position, blanks⟩ := last
  obtain rfl : machine = ⟨.afterExpression, []⟩ := hmachine
  refine ⟨blanks, hfront.append (.cons ?_ .nil)⟩
  rw [← hsize]
  rcases hc with ⟨rfl, rfl⟩ | ⟨rfl, rfl⟩
  · exact .mk hblank (.punctuation rfl) rfl
  · exact .mk hblank (.punctuation rfl) rfl

/-- What can be made of a complete query, whose tokens are `s`. -/
structure Composable (query : String) (s : TokenStream) : Prop where
  /-- In parentheses it is complete. -/
  group : ∃ u, Complete ("(" ++ query ++ ")") u ∧ u.toList =
    ⟨.openParenthesis, "(", 0⟩ :: (s.toList.dropLast.map (Token.moved 0 1) ++
      [⟨.closeParenthesis, ")", query.utf8ByteSize + 1⟩,
        Token.sentinel (query.utf8ByteSize + 1 + 1)])
  /-- As the argument of a call it is complete. -/
  call : ∀ {name : String}, isName name.toList = true →
    ∃ u, Complete (name ++ "(" ++ query ++ ")") u ∧ u.toList =
      ⟨.operator, name, 0⟩ :: ⟨.openParenthesis, "(", name.utf8ByteSize⟩ ::
        (s.toList.dropLast.map (Token.moved 0 (name.utf8ByteSize + 1)) ++
          [⟨.closeParenthesis, ")", query.utf8ByteSize + (name.utf8ByteSize + 1)⟩,
            Token.sentinel (query.utf8ByteSize + (name.utf8ByteSize + 1) + 1)])
  /-- Behind it and a connective any query is accepted that is accepted alone, and one that
  is complete is complete. -/
  join : ∀ {other : String} {t : TokenStream}, tokenize other = .ok t →
    ∀ {c : Char} {kind : Kind}, IsConnective c kind →
      ∃ u, tokenize (query ++ String.singleton c ++ other) = .ok u ∧
        u.toList = s.toList.dropLast ++ ⟨kind, String.singleton c, query.utf8ByteSize⟩ ::
          t.toList.map (Token.moved 0 (query.utf8ByteSize + 1)) ∧
        (Complete other t → Complete (query ++ String.singleton c ++ other) u)

/--
**Complete queries are closed under grouping, calling and joining.**  In parentheses, as the
argument of a call, and in front of a connective and another query, a complete query keeps
its tokens, further on by what is put in front of it.
-/
theorem composable_of_complete (h : Complete query s) : Composable query s where
  group := by
    have hopen : Passes (start ("(" ++ query ++ ")")) [⟨[], ['('], ⟨.openParenthesis, "(", 0⟩⟩]
        ⟨Machine.start.inside .group, 1, query.toList ++ [')']⟩ := by
      have htext : ("(" ++ query ++ ")").toList = [] ++ (['('] ++ (query.toList ++ [')'])) := by
        simp
      rw [start, htext]
      exact .cons (.mk (by simp) (.punctuation rfl) rfl) .nil
    exact h.enclosed hopen (by decide)
  call := by
    intro name hname
    have hconstant := Constant.read?_eq_none_of_name hname h.head?_ne
    have hnil : ∀ c ∈ ([] : List Char), isBlank c = true := by simp
    have hopen : Passes (start (name ++ "(" ++ query ++ ")"))
        [⟨[], name.toList, ⟨.operator, name, 0⟩⟩,
          ⟨[], ['('], ⟨.openParenthesis, "(", name.utf8ByteSize⟩⟩]
        ⟨Machine.start.inside .call, name.utf8ByteSize + 1, query.toList ++ [')']⟩ := by
      have htext : (name ++ "(" ++ query ++ ")").toList =
          [] ++ (name.toList ++ '(' :: (query.toList ++ [')'])) := by
        simp
      have hoperator : Advances (start (name ++ "(" ++ query ++ ")"))
          ⟨[], name.toList, ⟨.operator, name, 0⟩⟩
          ⟨⟨.afterOperator, []⟩, name.utf8ByteSize, '(' :: (query.toList ++ [')'])⟩ := by
        have hmk : Advances
            ⟨.start, 0, [] ++ (name.toList ++ '(' :: (query.toList ++ [')']))⟩ _ _ :=
          .mk hnil (.operator hname hconstant) (Machine.accept_of_move (.operator (.inl rfl)))
        simpa [start, htext, Lexeme.token, Lexeme.verbatim, Symbol.kind, byteLength_toList]
          using hmk
      exact .cons hoperator (.cons (.mk hnil (.punctuation rfl) rfl) .nil)
    exact h.enclosed hopen rfl
  join := by
    intro other t ht c kind hc
    obtain ⟨rfl, last, hpasses, hblank⟩ := tokenize_eq_ok_iff.mp ht
    obtain ⟨blanks, hfront⟩ := h.passes_connective hc other.toList
    obtain ⟨rfl, hbalanced, -⟩ := h.exists_passes
    have hmid : (⟨.start, query.utf8ByteSize + 1, other.toList⟩ : Scan) =
        (start other).moved 0 (query.utf8ByteSize + 1) := by
      simp [start, Scan.moved]
    rw [hmid] at hfront
    have hnew := hfront.append (hpasses.moved (Nat.zero_le _))
    have hstart : (start query).extended (c :: other.toList) =
        start (query ++ String.singleton c ++ other) := by
      simp [start, Scan.extended]
    rw [hstart] at hnew
    have hsize : (query ++ String.singleton c ++ other).utf8ByteSize =
        other.utf8ByteSize - 0 + (query.utf8ByteSize + 1) := by
      have hone : (String.singleton c).utf8ByteSize = 1 := by
        rcases hc with ⟨rfl, -⟩ | ⟨rfl, -⟩ <;> rfl
      simp only [String.utf8ByteSize_append, hone]
      omega
    refine ⟨_, tokenize_of_passes hnew hblank, ?_, ?_⟩
    · rw [TokenStream.toList_close, TokenStream.toList_close, TokenStream.toList_close, hsize,
        List.dropLast_concat]
      simp [Tile.moved, Token.moved, Token.sentinel]
    · intro hother
      obtain ⟨machine, position, hending, hcontext⟩ := hother.ends
      rw [hpasses.run_of_blank hblank] at hending
      obtain ⟨rfl, -⟩ := Ending.finished.inj hending
      have hkind : Balanced [kind] := by
        rcases hc with ⟨-, rfl⟩ | ⟨-, rfl⟩ <;> rfl
      have hall := (hbalanced.append hkind).append hother.exists_passes.2.1
      refine complete_of_passes hnew hblank ?_ hcontext
      simpa [Function.comp_def, Tile.moved, Token.moved] using hall

/-- The query `a=1|b=(2)` is complete, and so it is in a group, in a call, and with another
behind it. -/
theorem composable_of_complete_comparisons :
    Complete "a=1|b=(2)" (.close [⟨.string, "a", 0⟩, ⟨.operator, "eq", 1⟩, ⟨.integer, "1", 2⟩,
        ⟨.verticalBar, "|", 3⟩, ⟨.string, "b", 4⟩, ⟨.operator, "eq", 5⟩,
        ⟨.openParenthesis, "(", 6⟩, ⟨.integer, "2", 7⟩, ⟨.closeParenthesis, ")", 8⟩] 9) ∧
      (∃ u, Complete ("(" ++ "a=1|b=(2)" ++ ")") u ∧ u.toList =
        [⟨.openParenthesis, "(", 0⟩, ⟨.string, "a", 1⟩, ⟨.operator, "eq", 2⟩,
          ⟨.integer, "1", 3⟩, ⟨.verticalBar, "|", 4⟩, ⟨.string, "b", 5⟩, ⟨.operator, "eq", 6⟩,
          ⟨.openParenthesis, "(", 7⟩, ⟨.integer, "2", 8⟩, ⟨.closeParenthesis, ")", 9⟩,
          ⟨.closeParenthesis, ")", 10⟩, Token.sentinel 11]) ∧
      (∃ u, Complete ("not" ++ "(" ++ "a=1|b=(2)" ++ ")") u ∧ u.toList =
        [⟨.operator, "not", 0⟩, ⟨.openParenthesis, "(", 3⟩, ⟨.string, "a", 4⟩,
          ⟨.operator, "eq", 5⟩, ⟨.integer, "1", 6⟩, ⟨.verticalBar, "|", 7⟩, ⟨.string, "b", 8⟩,
          ⟨.operator, "eq", 9⟩, ⟨.openParenthesis, "(", 10⟩, ⟨.integer, "2", 11⟩,
          ⟨.closeParenthesis, ")", 12⟩, ⟨.closeParenthesis, ")", 13⟩, Token.sentinel 14]) ∧
      ∃ u, Complete ("a=1|b=(2)" ++ String.singleton '&' ++ "c=3") u ∧ u.toList =
        [⟨.string, "a", 0⟩, ⟨.operator, "eq", 1⟩, ⟨.integer, "1", 2⟩, ⟨.verticalBar, "|", 3⟩,
          ⟨.string, "b", 4⟩, ⟨.operator, "eq", 5⟩, ⟨.openParenthesis, "(", 6⟩,
          ⟨.integer, "2", 7⟩, ⟨.closeParenthesis, ")", 8⟩, ⟨.ampersand, "&", 9⟩,
          ⟨.string, "c", 10⟩, ⟨.operator, "eq", 11⟩, ⟨.integer, "3", 12⟩, Token.sentinel 13] := by
  have h : Complete "a=1|b=(2)" (.close [⟨.string, "a", 0⟩, ⟨.operator, "eq", 1⟩,
      ⟨.integer, "1", 2⟩, ⟨.verticalBar, "|", 3⟩, ⟨.string, "b", 4⟩, ⟨.operator, "eq", 5⟩,
      ⟨.openParenthesis, "(", 6⟩, ⟨.integer, "2", 7⟩, ⟨.closeParenthesis, ")", 8⟩] 9) :=
    ⟨by decide +kernel, by decide +kernel, ⟨.afterExpression, []⟩, 9, by decide +kernel, rfl⟩
  have hother : Complete "c=3" (.close [⟨.string, "c", 0⟩, ⟨.operator, "eq", 1⟩,
      ⟨.integer, "3", 2⟩] 3) :=
    ⟨by decide +kernel, by decide +kernel, ⟨.afterExpression, []⟩, 3, by decide +kernel, rfl⟩
  have hcomposable := composable_of_complete h
  have hconnective : IsConnective '&' .ampersand := .inl ⟨rfl, rfl⟩
  obtain ⟨u, -, htokens, hcomplete⟩ := hcomposable.join hother.accepted hconnective
  exact ⟨h, hcomposable.group, hcomposable.call (by decide), u, hcomplete hother, htokens⟩

end ResourceQuery

/-
Every spelling of a comparison will do, wherever the comparison stands.

The comparison of an accepted query is spelled otherwise.  In front of it every lexeme is
read as before, as long as no other comparison reaches up to it; and none does, for a
comparison is followed by a value, and between a value and the next field there is always
some character that no name has (`Passes.exists_not_name`).  At the place the same token is
read, if the new spelling is one of its operator and is read whole.  Behind the place the
same text is left with the same machine, off by the difference in length.

The named form is read whole whatever stands behind it.  So the comparisons of a query can
all be brought into it, one by one from the last to the first.
-/
import Mathlib.Data.List.Induction
import ResourceQuery.Proofs.Lexeme.Respelling
import ResourceQuery.Proofs.Scan.Escaping
import ResourceQuery.Proofs.Scan.Seam

namespace ResourceQuery

namespace Tile

instance (t : Tile) : Decidable t.IsComparison :=
  inferInstanceAs (Decidable (t.token.kind = .operator ∧ Comparison.Spelled t.raw))

/-- The tile with a comparison in its named form. -/
def inNamedForm (t : Tile) : Tile :=
  if t.IsComparison then { t with raw := Comparison.namedForm t.token.value } else t

/-- The tiles one behind another, from a byte of the query on. -/
def placed (position : Nat) : List Tile → List Tile
  | [] => []
  | t :: ts =>
    { t with token := { t.token with position := position + byteLength t.blanks } } ::
      placed (position + byteLength t.written) ts

variable {t : Tile} {ts us : List Tile} {position a b : Nat}

@[simp] theorem written_moved (t : Tile) : (t.moved a b).written = t.written := rfl

@[simp] theorem flatMap_written_moved (ts : List Tile) :
    (ts.map (Tile.moved a b)).flatMap Tile.written = ts.flatMap Tile.written := by
  rw [List.flatMap_map]
  rfl

theorem placed_append : placed position (ts ++ us) =
    placed position ts ++ placed (position + byteLength (ts.flatMap Tile.written)) us := by
  induction ts generalizing position with
  | nil => rfl
  | cons t ts ih =>
      simp only [List.cons_append, placed, ih, List.flatMap_cons, byteLength_append, Nat.add_assoc]

theorem placed_moved : placed position (ts.map (Tile.moved a b)) = placed position ts := by
  induction ts generalizing position with
  | nil => rfl
  | cons t ts ih =>
      simp only [List.map_cons, placed, ih, written_moved]
      rfl

theorem token_inNamedForm (t : Tile) : t.inNamedForm.token = t.token := by
  unfold inNamedForm
  split <;> rfl

/-- Wherever they are placed, tokens keep their kinds and values in the named form. -/
theorem map_placed_inNamedForm (ts : List Tile) (position : Nat) :
    (placed position (ts.map inNamedForm)).map (fun t => (t.token.kind, t.token.value)) =
      ts.map (fun t => (t.token.kind, t.token.value)) := by
  induction ts generalizing position with
  | nil => rfl
  | cons t ts ih => simp only [List.map_cons, placed, ih, token_inNamedForm]

end Tile

namespace Scan

variable {s next last mid : Scan} {t : Tile} {ts us : List Tile} {spelling : List Char}

theorem Passes.placed (h : Passes s ts last) : Tile.placed s.position ts = ts := by
  induction h with
  | nil => rfl
  | @cons s next last t ts step steps ih =>
      have hnext : next.position = s.position + byteLength t.written := by
        rw [step.stop, Tile.stop, step.position_eq, Tile.written, byteLength_append, Nat.add_assoc]
      rw [Tile.placed, ← hnext, ih, ← step.position_eq]

/-! ### In front of the place -/

theorem Advances.context_of_spelled (h : Advances s t next)
    (hspelled : Comparison.Spelled t.raw) : next.machine.context = .afterComparison := by
  obtain ⟨-, reading, accepted⟩ := h
  rw [(reading.of_spelled hspelled).2] at accepted
  have hcontext := Machine.context_of_accept_comparison accepted
  rename_i machine machine' _ _ _ _ _
  obtain ⟨context, frames⟩ := machine
  obtain rfl : context = .afterField := hcontext
  obtain rfl := Option.some.inj accepted
  rfl

/-- No field stands directly behind a comparison. -/
theorem Advances.not_field (h : Advances s t next)
    (hs : s.machine.context = .afterComparison) :
    next.machine.context.awaited? ≠ some .comparison := by
  obtain ⟨-, -, accepted⟩ := h
  rw [(Machine.move_of_accept accepted).awaited?_eq]
  intro ha
  rcases Symbol.promised?_cases ha with ⟨-, h⟩ | ⟨-, h⟩ | ⟨hfield, -⟩
  · cases h
  · cases h
  · rw [hfield] at accepted
    rcases Machine.startsTerm_of_accept_field accepted with h | h <;> cases hs.symm.trans h

/-- Between a comparison and the field of the next there is a character that no name has. -/
theorem Passes.exists_not_name (h : Passes s ts mid) (hs : s.machine.context = .afterComparison)
    (hmid : mid.machine.context.awaited? = some .comparison) :
    ∃ c ∈ ts.flatMap Tile.written, continuesName c = false := by
  by_contra hnone
  have hname : ∀ c ∈ ts.flatMap Tile.written, continuesName c = true := by
    simpa using hnone
  cases h with
  | nil =>
      rw [hs] at hmid
      cases hmid
  | @cons _ next _ t ts step steps =>
      have hstep := step
      obtain ⟨-, reading, -⟩ := step
      rename_i machine machine' position blanks raw rest lexeme
      obtain ⟨c, cs, rfl, -⟩ := reading.exists_cons
      have hstops : Stops continuesLiteral rest := by
        have hlast := List.getLast?_eq_some_getLast (List.cons_ne_nil c cs)
        refine reading.stops_of_name hlast (hname _ ?_)
        simp only [List.flatMap_cons, Tile.written, List.append_assoc]
        exact List.mem_append_right _ (List.mem_append_left _ (List.getLast_mem _))
      cases steps with
      | nil => exact hstep.not_field hs hmid
      | @cons _ _ _ u us step' steps' =>
          -- the first token ends in a character of a name, and another would go on with it
          obtain ⟨d, ds, hd⟩ := List.exists_cons_of_ne_nil step'.written_ne_nil
          have hrest : rest = d :: (ds ++ _) := step'.rest_eq.trans (by rw [hd]; rfl)
          have hcontinues := continuesLiteral_of_continuesName (hname d (by simp [hd]))
          rw [hrest] at hstops
          rw [Stops.cons_iff.mp hstops] at hcontinues
          cases hcontinues

/-- A comparison stands directly behind its field. -/
theorem Advances.blanks_of_comparison (hfront : Passes s ts mid)
    (hs : s.machine.context.awaited? = none) (h : Advances mid t next) (ht : t.IsComparison) :
    t.blanks = [] := by
  have ha := h.awaited?_of_comparison ht
  obtain ⟨us, u, front, rfl, -, hlast⟩ := hfront.exists_promise hs ha
  obtain ⟨v, last, hnext, hposition, -⟩ := hlast.exists_answer ha
  have htoken : t.token = v.token := (Step.accepted.inj (h.step.symm.trans hnext.step)).1
  have hle := length_le_byteLength t.blanks
  rw [← htoken, h.position_eq, ← hlast.stop] at hposition
  exact List.length_eq_zero_iff.mp (by omega)

/-- In front of a comparison that is spelled otherwise, all is passed over as before. -/
theorem Passes.respell_front (h : Passes s ts mid) (hplace : Advances mid t next)
    (ht : t.IsComparison) (hblanks : t.blanks = []) (hnew : Comparison.Spelled spelling) :
    Passes { s with rest := ts.flatMap Tile.written ++ (t.blanks ++ (spelling ++ next.rest)) } ts
      { mid with rest := t.blanks ++ (spelling ++ next.rest) } := by
  have hmid : mid.rest = t.raw ++ next.rest := by
    rw [hplace.rest_eq, Tile.written, hblanks, List.nil_append]
  rw [hblanks, List.nil_append]
  refine h.with_rest ?_
  intro vs us u place next' l _ hstep hsteps reading hkind _
  rw [hsteps.rest_eq, hmid] at reading
  refine reading.respell ht.2 hnew ?_ ?_ ?_
  · intro hspelled
    exact hsteps.exists_not_name (hstep.context_of_spelled hspelled)
      (hplace.awaited?_of_comparison ht)
  · by_cases hus : us = []
    · simp [hus]
    · exact (hsteps.seam hus).bang
  · intro hcolon
    rw [hkind]
    exact hsteps.typeName_of_gap hstep hcolon

/-- At the place the same token is read. -/
theorem Advances.respell (h : Advances s t next) (ht : t.IsComparison)
    (hread : Comparison.read? (spelling ++ next.rest) = some (spelling.length, t.token.value)) :
    Advances { s with rest := t.blanks ++ (spelling ++ next.rest) } { t with raw := spelling }
      (next.moved (byteLength t.raw) (byteLength spelling)) := by
  obtain @⟨machine, machine', position, blanks, raw, rest, lexeme, blank, reading, accepted⟩ := h
  obtain ⟨hspelling, hlongest⟩ := Comparison.read?_append_iff.mp hread
  have hsymbol := (reading.of_spelled ht.2).2
  have hposition : position + byteLength blanks + byteLength raw - byteLength raw +
      byteLength spelling = position + byteLength blanks + byteLength spelling := by
    omega
  have htoken : lexeme.token (position + byteLength blanks) =
      (⟨.comparison, lexeme.value, spelling.length⟩ : Lexeme).token
        (position + byteLength blanks) := by
    rw [Lexeme.token, hsymbol]
    rfl
  rw [hsymbol] at accepted
  simp only [Scan.moved, hposition, htoken]
  exact .mk blank (.comparison hspelling hlongest) accepted

/-- A query passed over tile by tile is passed over with one of its comparisons spelled
otherwise. -/
theorem Passes.respell (hs : s.machine.context.awaited? = none) (hfront : Passes s ts mid)
    (hplace : Advances mid t next) (hback : Passes next us last) (ht : t.IsComparison)
    (hread : Comparison.read? (spelling ++ next.rest) = some (spelling.length, t.token.value)) :
    Passes { s with rest := ts.flatMap Tile.written ++ (t.blanks ++ (spelling ++ next.rest)) }
      (ts ++ { t with raw := spelling } ::
        us.map (Tile.moved (byteLength t.raw) (byteLength spelling)))
      (last.moved (byteLength t.raw) (byteLength spelling)) := by
  have hnew : Comparison.Spelled spelling := ⟨_, (Comparison.read?_append_iff.mp hread).1⟩
  have hblanks := hplace.blanks_of_comparison hfront hs ht
  have hle : byteLength t.raw ≤ next.position := by
    rw [hplace.stop]
    exact Nat.le_add_left _ _
  exact (hfront.respell_front hplace ht hblanks hnew).append
    (.cons (hplace.respell ht hread) (hback.moved hle))

theorem Advances.spelling_of_comparison (h : Advances s t next) (ht : t.IsComparison) :
    Comparison.Spelling t.raw t.token.value := by
  obtain ⟨-, reading, -⟩ := h
  exact (reading.of_spelled ht.2).1

/-- The comparisons of a query can be brought into their named form, from the last to the
first. -/
theorem Passes.inNamedForm {machine : Machine} {position : Nat} {text : List Char}
    (hs : machine.context.awaited? = none) (h : Passes ⟨machine, position, text⟩ (ts ++ us) last) :
    ∃ last', last'.rest = last.rest ∧
      Passes ⟨machine, position,
          (ts.map Tile.inNamedForm ++ us).flatMap Tile.written ++ last.rest⟩
        (Tile.placed position (ts.map Tile.inNamedForm ++ us)) last' := by
  induction ts using List.reverseRecOn generalizing text us last with
  | nil =>
      rw [List.nil_append] at h
      have hrest : text = us.flatMap Tile.written ++ last.rest := h.rest_eq
      have hplaced : Tile.placed position us = us := h.placed
      refine ⟨last, rfl, ?_⟩
      rw [List.map_nil, List.nil_append, hplaced, ← hrest]
      exact h
  | append_singleton ts t ih =>
      rw [List.append_assoc, List.singleton_append] at h
      simp only [List.map_append, List.map_singleton, List.append_assoc, List.singleton_append]
      by_cases ht : t.IsComparison
      · obtain ⟨mid, hfront, hback⟩ := h.split
        cases hback with
        | @cons _ next _ _ _ hplace hafter =>
            have hread := (hplace.spelling_of_comparison ht).read?_namedForm next.rest
            obtain ⟨last', hrest, hnew⟩ := ih (hfront.respell hs hplace hafter ht hread)
            refine ⟨last', hrest, ?_⟩
            rw [show t.inNamedForm = _ from if_pos ht]
            simpa [Tile.placed_append, Tile.placed, Tile.placed_moved, Tile.written, Scan.moved]
              using hnew
      · rw [show t.inNamedForm = t from if_neg ht]
        exact ih h

end Scan

open Scan

/-- The comparisons of an accepted query, whose tokens are `s`, may be spelled in any way
that is read as the same operator. -/
structure Respellable (query : String) (s : TokenStream) : Prop where
  /-- In place of one comparison, in front of what stands behind it, let any text be read
  whole as the operator of the comparison.  The query is accepted with the same tokens;
  those up to the comparison are where they were, and those behind it are off by the
  difference in length. -/
  one : ∀ {t : Tile}, t ∈ (start query).tiles → t.IsComparison → ∀ {front back : List Char},
    query.toList = front ++ (t.raw ++ back) → byteLength front = t.token.position →
      ∀ {spelling : List Char},
        Comparison.read? (spelling ++ back) = some (spelling.length, t.token.value) →
          ∃ before after s', s.toList = before ++ t.token :: after ∧
            tokenize (String.ofList (front ++ (spelling ++ back))) = .ok s' ∧
            s'.toList = before ++ t.token ::
              after.map (Token.moved (byteLength t.raw) (byteLength spelling))
  /-- The named form of a comparison is read whole, whatever stands behind it. -/
  named : ∀ {t : Tile}, t ∈ (start query).tiles → t.IsComparison → ∀ back : List Char,
    Comparison.read? (Comparison.namedForm t.token.value ++ back) =
      some ((Comparison.namedForm t.token.value).length, t.token.value)
  /-- With all its comparisons in their named form the query is accepted, with tokens of the
  same kinds and values, each as far on as the texts in front of it are long. -/
  normal : ∃ trailing s', query.toList = (start query).tiles.flatMap Tile.written ++ trailing ∧
    tokenize (String.ofList
      (((start query).tiles.map Tile.inNamedForm).flatMap Tile.written ++ trailing)) = .ok s' ∧
    s'.toList.map (fun t => (t.kind, t.value)) = s.toList.map (fun t => (t.kind, t.value)) ∧
    s'.toList.dropLast =
      (Tile.placed 0 ((start query).tiles.map Tile.inNamedForm)).map Tile.token

/--
**Every spelling of a comparison will do.**  Whatever is read as the same operator, read
whole, may stand in place of a comparison of an accepted query; the named form may always,
and in place of all of them.
-/
theorem tokenize_respell {query : String} {s : TokenStream} (h : tokenize query = .ok s) :
    Respellable query s where
  one := by
    intro t ht hcomparison front back hquery hfront spelling hread
    obtain ⟨ts, us, mid, next, last, hbefore, hplace, hafter, hblank, htiles, rfl, rfl⟩ :=
      exists_site h ht hquery hfront
    obtain ⟨rfl, -⟩ := tokenize_eq_ok_iff.mp h
    have hnew := hbefore.respell rfl hplace hafter hcomparison hread
    rw [← List.append_assoc] at hnew
    refine ⟨ts.map Tile.token, us.map Tile.token ++ [Token.sentinel query.utf8ByteSize], _, ?_,
      tokenize_ofList_of_passes hnew hblank, ?_⟩
    · rw [TokenStream.toList_close, htiles]
      simp
    · have hsize : byteLength (ts.flatMap Tile.written ++ t.blanks ++ (spelling ++ next.rest)) =
          query.utf8ByteSize - byteLength t.raw + byteLength spelling := by
        rw [← byteLength_toList, hquery]
        simp only [byteLength_append]
        omega
      rw [TokenStream.toList_close, hsize]
      simp [Token.moved, Token.sentinel, Tile.moved]
  named := by
    intro t ht hcomparison back
    obtain ⟨ts, us, htiles⟩ := List.append_of_mem ht
    obtain ⟨mid, next, -, hplace, -⟩ := exists_place htiles
    exact (hplace.spelling_of_comparison hcomparison).read?_namedForm back
  normal := by
    obtain ⟨rfl, last, hpasses, hblank⟩ := tokenize_eq_ok_iff.mp h
    rw [← List.append_nil (start query).tiles] at hpasses
    obtain ⟨last', hrest, hnew⟩ := Passes.inNamedForm rfl hpasses
    rw [List.append_nil] at hpasses hnew
    refine ⟨last.rest, _, hpasses.rest_eq,
      tokenize_ofList_of_passes hnew (by rwa [hrest]), ?_, ?_⟩
    · rw [TokenStream.toList_close, TokenStream.toList_close, List.map_append, List.map_append,
        List.map_map, List.map_map]
      exact congrArg (· ++ _) (Tile.map_placed_inNamedForm _ 0)
    · rw [TokenStream.toList_close, List.dropLast_concat]

/-- In `and(a=lt=5,b=c)` the first comparison may be spelled `<`. -/
theorem tokenize_respell_as_symbol :
    tokenize "and(a=lt=5,b=c)" = .ok (.close [⟨.operator, "and", 0⟩, ⟨.openParenthesis, "(", 3⟩,
        ⟨.string, "a", 4⟩, ⟨.operator, "lt", 5⟩, ⟨.integer, "5", 9⟩, ⟨.comma, ",", 10⟩,
        ⟨.string, "b", 11⟩, ⟨.operator, "eq", 12⟩, ⟨.string, "c", 13⟩,
        ⟨.closeParenthesis, ")", 14⟩] 15) ∧
      ∃ before after s',
        (TokenStream.close [⟨.operator, "and", 0⟩, ⟨.openParenthesis, "(", 3⟩,
          ⟨.string, "a", 4⟩, ⟨.operator, "lt", 5⟩, ⟨.integer, "5", 9⟩, ⟨.comma, ",", 10⟩,
          ⟨.string, "b", 11⟩, ⟨.operator, "eq", 12⟩, ⟨.string, "c", 13⟩,
          ⟨.closeParenthesis, ")", 14⟩] 15).toList = before ++ ⟨.operator, "lt", 5⟩ :: after ∧
        tokenize (String.ofList (['a', 'n', 'd', '(', 'a'] ++
          (['<'] ++ ['5', ',', 'b', '=', 'c', ')']))) = .ok s' ∧
        s'.toList = before ++ ⟨.operator, "lt", 5⟩ :: after.map (Token.moved 4 1) := by
  have htokenize : tokenize "and(a=lt=5,b=c)" = .ok (.close [⟨.operator, "and", 0⟩,
      ⟨.openParenthesis, "(", 3⟩, ⟨.string, "a", 4⟩, ⟨.operator, "lt", 5⟩, ⟨.integer, "5", 9⟩,
      ⟨.comma, ",", 10⟩, ⟨.string, "b", 11⟩, ⟨.operator, "eq", 12⟩, ⟨.string, "c", 13⟩,
      ⟨.closeParenthesis, ")", 14⟩] 15) := by
    decide +kernel
  have htile : (⟨[], ['=', 'l', 't', '='], ⟨.operator, "lt", 5⟩⟩ : Tile) ∈
      (Scan.start "and(a=lt=5,b=c)").tiles := by
    decide +kernel
  exact ⟨htokenize, (tokenize_respell htokenize).one htile (by decide +kernel) rfl (by decide)
    (by decide +kernel)⟩

end ResourceQuery

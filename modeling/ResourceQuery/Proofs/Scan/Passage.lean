/-
How a scan passes over a query, token by token.

A run keeps the tokens it has accepted and forgets what they were read from.
`Scan.tiles` keeps that too: each token with its text and the blanks in front of it.
`Advances` is one accepted step, stated by the rules of the lexemes instead of the
recognisers, and `Passes` any number of them, so a run can be cut in two at any token
and each part looked at with the text that is left there.

The main fact is `tokenize_eq_ok_iff`: a query is accepted exactly when its tiles lead
to where only blanks are left, and its tokens are those of the tiles.
-/
import Mathlib.Data.List.TakeWhile
import ResourceQuery.Scan
import ResourceQuery.Proofs.Lexeme.Reading

namespace ResourceQuery

/-- A token with what it was read from. -/
structure Tile where
  /-- The blanks in front of the token. -/
  blanks : List Char
  /-- The text of the token, as it is written. -/
  raw : List Char
  token : Token
  deriving DecidableEq, Repr

namespace Tile

/-- Everything that a tile takes of a query. -/
def written (t : Tile) : List Char :=
  t.blanks ++ t.raw

/-- The byte of the query behind the token. -/
def stop (t : Tile) : Nat :=
  t.token.position + byteLength t.raw

end Tile

/-- The token at another position: `b` bytes in front of it stand where `a` did. -/
def Token.moved (a b : Nat) (t : Token) : Token :=
  { t with position := t.position - a + b }

/-- The tile at another position: `b` bytes in front of it stand where `a` did. -/
def Tile.moved (a b : Nat) (t : Tile) : Tile :=
  { t with token := t.token.moved a b }

/-- Of two ways to cut a text, the one at the earlier byte takes less in front. -/
theorem exists_of_byteLength_le {u u' v v' : List Char} (h : u ++ v = u' ++ v')
    (hle : byteLength u ≤ byteLength u') : ∃ y, u' = u ++ y ∧ v = y ++ v' := by
  rcases List.append_eq_append_iff.mp h with ⟨y, hu, hv⟩ | ⟨y, rfl, rfl⟩
  · exact ⟨y, hu, hv⟩
  · have hlength := length_le_byteLength y
    rw [byteLength_append] at hle
    obtain rfl : y = [] := List.length_eq_zero_iff.mp (by omega)
    exact ⟨[], by simp⟩

/-- Two ways to cut a text at the same byte are one. -/
theorem append_inj_of_byteLength {u u' v v' : List Char} (h : u ++ v = u' ++ v')
    (hlength : byteLength u = byteLength u') : u = u' ∧ v = v' := by
  obtain ⟨y, rfl, rfl⟩ := exists_of_byteLength_le h (Nat.le_of_eq hlength)
  have hle := length_le_byteLength y
  rw [byteLength_append] at hlength
  obtain rfl : y = [] := List.length_eq_zero_iff.mp (by omega)
  exact ⟨(List.append_nil u).symm, rfl⟩

namespace Scan

/-- The tokens a scan accepts, each with what it was read from. -/
def tiles (s : Scan) : List Tile :=
  match h : s.step with
  | .accepted token next =>
    have _shorter := length_rest_of_step h
    ⟨s.rest.takeWhile isBlank,
      s.skipBlanks.rest.take (s.skipBlanks.rest.length - next.rest.length), token⟩ :: next.tiles
  | _ => []
termination_by s.rest.length

/-- One accepted step, over one tile. -/
inductive Advances : Scan → Tile → Scan → Prop
  | mk {machine machine' : Machine} {position : Nat} {blanks raw rest : List Char}
      {lexeme : Lexeme} (blank : ∀ c ∈ blanks, isBlank c = true)
      (reading : Lexeme.Reading raw rest lexeme)
      (accepted : machine.accept lexeme.symbol = some machine') :
      Advances ⟨machine, position, blanks ++ (raw ++ rest)⟩
        ⟨blanks, raw, lexeme.token (position + byteLength blanks)⟩
        ⟨machine', position + byteLength blanks + byteLength raw, rest⟩

/-- Any number of accepted steps, over as many tiles. -/
inductive Passes : Scan → List Tile → Scan → Prop
  | nil {s : Scan} : Passes s [] s
  | cons {s next last : Scan} {t : Tile} {ts : List Tile} (step : Advances s t next)
      (steps : Passes next ts last) : Passes s (t :: ts) last

variable {s next last : Scan} {t : Tile} {ts us : List Tile} {token : Token}

/-! ### A step is a step -/

theorem step_of_blanks {machine : Machine} {position : Nat} {blanks rest : List Char}
    (hblanks : ∀ c ∈ blanks, isBlank c = true) (hrest : Stops isBlank rest) :
    Scan.step ⟨machine, position, blanks ++ rest⟩ =
      Scan.readToken ⟨machine, position + byteLength blanks, rest⟩ := by
  rw [step, skipBlanks]
  simp only [takeWhile_append_stops hblanks hrest, dropWhile_append_stops hblanks hrest]

theorem stops_isBlank_of_reading {raw rest : List Char} {l : Lexeme}
    (h : Lexeme.Reading raw rest l) : Stops isBlank (raw ++ rest) := by
  obtain ⟨c, cs, rfl, hc⟩ := h.exists_cons
  exact Stops.cons_iff.mpr hc

theorem Advances.step (h : Advances s t next) : s.step = .accepted t.token next := by
  obtain ⟨blank, reading, accepted⟩ := h
  rename_i machine machine' position blanks raw rest lexeme
  rw [step_of_blanks blank (stops_isBlank_of_reading reading)]
  obtain ⟨c, cs, rfl, -⟩ := reading.exists_cons
  have hread : Lexeme.read c (cs ++ rest) = .ok lexeme := reading.read rfl
  have hbehind : behind ⟨machine, position + byteLength blanks, c :: (cs ++ rest)⟩ lexeme machine' =
      ⟨machine', position + byteLength blanks + byteLength (c :: cs), rest⟩ := by
    rw [behind, reading.length, ← List.cons_append, List.take_left, List.drop_left]
  simp only [List.cons_append, readToken, hread, accepted, hbehind]

/-- A step of a scan that accepts a token passes over a tile. -/
theorem advances_of_step (h : s.step = .accepted token next) :
    ∃ t, Advances s t next ∧ t.token = token := by
  obtain ⟨machine, position, text⟩ := s
  obtain ⟨blanks, text, rfl, hblanks, htext⟩ := exists_run isBlank text
  rw [step_of_blanks hblanks htext] at h
  simp only [readToken] at h
  split at h
  · cases h
  · rename_i c cs
    split at h
    · cases h
    · rename_i lexeme hread
      obtain ⟨raw, rest, hraw, reading⟩ := Lexeme.reading_of_read hread
      rw [hraw] at h ⊢
      split at h
      · cases h
      · rename_i machine' accepted
        obtain ⟨rfl, rfl⟩ := Step.accepted.inj h
        refine ⟨⟨blanks, raw, lexeme.token (position + byteLength blanks)⟩, ?_, rfl⟩
        rw [behind, reading.length, List.take_left, List.drop_left]
        exact .mk hblanks reading accepted

theorem tiles_of_advances (h : Advances s t next) : s.tiles = t :: next.tiles := by
  rw [tiles]
  split
  · rename_i token next' hstep
    rw [h.step] at hstep
    obtain ⟨rfl, rfl⟩ := Step.accepted.inj hstep
    obtain ⟨blank, reading, accepted⟩ := h
    have hstops := stops_isBlank_of_reading reading
    simp [skipBlanks, takeWhile_append_stops blank hstops, dropWhile_append_stops blank hstops]
  · rename_i hstep
    exact absurd h.step (hstep _ _)

theorem tiles_of_not_accepted (h : ∀ token next, s.step ≠ .accepted token next) :
    s.tiles = [] := by
  rw [tiles]
  split
  · rename_i hstep
    exact absurd hstep (h _ _)
  · rfl

/-! ### Runs, cut in two -/

theorem Passes.tiles (h : Passes s ts next) : s.tiles = ts ++ next.tiles := by
  induction h with
  | nil => rfl
  | cons step _ ih => rw [tiles_of_advances step, ih, List.cons_append]

theorem Passes.run (h : Passes s ts next) :
    s.run = ⟨ts.map Tile.token ++ next.run.tokens, next.run.ending⟩ := by
  induction h with
  | nil => rfl
  | cons step _ ih =>
      rw [run_of_accepted step.step, ih]
      rfl

theorem Passes.append (h : Passes s ts next) (hnext : Passes next us last) :
    Passes s (ts ++ us) last := by
  induction h with
  | nil => exact hnext
  | cons step _ ih => exact .cons step (ih hnext)

/-- A scan passes over its tiles, up to a place where it accepts no more. -/
theorem exists_passes (s : Scan) :
    ∃ last, Passes s s.tiles last ∧ ∀ token next, last.step ≠ .accepted token next := by
  by_cases h : ∃ token next, s.step = .accepted token next
  · obtain ⟨token, next, hstep⟩ := h
    obtain ⟨t, hadvances, -⟩ := advances_of_step hstep
    have _shorter := length_rest_of_step hstep
    obtain ⟨last, hpasses, hlast⟩ := exists_passes next
    refine ⟨last, ?_, hlast⟩
    rw [tiles_of_advances hadvances]
    exact .cons hadvances hpasses
  · refine ⟨s, ?_, fun token next hstep => h ⟨token, next, hstep⟩⟩
    rw [tiles_of_not_accepted fun token next hstep => h ⟨token, next, hstep⟩]
    exact .nil
termination_by s.rest.length

theorem Passes.position (h : Passes s ts next) :
    next.position + byteLength next.rest = s.position + byteLength s.rest := by
  induction h with
  | nil => rfl
  | cons step _ ih =>
      obtain ⟨⟩ := step
      rw [ih]
      simp only [byteLength_append]
      omega

theorem Passes.split (h : Passes s (ts ++ us) last) :
    ∃ mid, Passes s ts mid ∧ Passes mid us last := by
  induction ts generalizing s with
  | nil => exact ⟨s, .nil, h⟩
  | cons t ts ih =>
      cases h with
      | cons step steps =>
          obtain ⟨mid, hfront, hback⟩ := ih steps
          exact ⟨mid, .cons step hfront, hback⟩

theorem Passes.exists_last (h : Passes s (ts ++ [t]) last) :
    ∃ mid, Passes s ts mid ∧ Advances mid t last := by
  obtain ⟨mid, hfront, hback⟩ := h.split
  cases hback with
  | cons step steps =>
      cases steps
      exact ⟨mid, hfront, step⟩

/-- A scan comes to where it is by a last step, if by any. -/
theorem Passes.last_cases (h : Passes s ts last) : ts = [] ∧ s = last ∨
    ∃ us t mid, ts = us ++ [t] ∧ Passes s us mid ∧ Advances mid t last := by
  rcases List.eq_nil_or_concat ts with rfl | ⟨us, t, hts⟩
  · cases h
    exact .inl ⟨rfl, rfl⟩
  · rw [List.concat_eq_append] at hts
    subst hts
    obtain ⟨mid, hfront, hlast⟩ := h.exists_last
    exact .inr ⟨us, t, mid, rfl, hfront, hlast⟩

/-- Where a tile of a scan stands, with the tiles behind it. -/
theorem exists_place (h : s.tiles = ts ++ t :: us) :
    ∃ mid next, Passes s ts mid ∧ Advances mid t next ∧ next.tiles = us := by
  obtain ⟨last, hpasses, hlast⟩ := exists_passes s
  rw [h] at hpasses
  obtain ⟨mid, hfront, hback⟩ := hpasses.split
  cases hback with
  | @cons _ next _ _ _ step steps =>
      refine ⟨mid, next, hfront, step, ?_⟩
      rw [steps.tiles, tiles_of_not_accepted hlast, List.append_nil]

theorem Advances.blank (h : Advances s t next) : ∀ c ∈ t.blanks, isBlank c = true := by
  obtain ⟨blank, -, -⟩ := h
  exact blank

theorem Advances.rest_eq (h : Advances s t next) : s.rest = t.written ++ next.rest := by
  obtain ⟨⟩ := h
  exact (List.append_assoc _ _ _).symm

theorem Advances.position_eq (h : Advances s t next) :
    t.token.position = s.position + byteLength t.blanks := by
  obtain ⟨⟩ := h
  rfl

/-- The tiles are what stands between two places of a query. -/
theorem Passes.rest_eq (h : Passes s ts next) :
    s.rest = ts.flatMap Tile.written ++ next.rest := by
  induction h with
  | nil => rfl
  | cons step _ ih => rw [step.rest_eq, ih, List.flatMap_cons, List.append_assoc]

/-- Where a tile stands in a query that is passed over. -/
theorem Passes.place {query : String} (h : Passes (Scan.start query) ts mid)
    (hplace : Advances mid t next) :
    query.toList = (ts.flatMap Tile.written ++ t.blanks) ++ (t.raw ++ next.rest) ∧
      t.token.position = byteLength (ts.flatMap Tile.written ++ t.blanks) := by
  have htext : query.toList = ts.flatMap Tile.written ++ mid.rest := h.rest_eq
  have hmid : mid.position + byteLength mid.rest = 0 + byteLength query.toList := h.position
  rw [htext, byteLength_append] at hmid
  have hrest := hplace.rest_eq
  refine ⟨?_, ?_⟩
  · rw [htext, hrest]
    simp only [Tile.written, List.append_assoc]
  · rw [hplace.position_eq, byteLength_append]
    omega

/-! ### The same steps elsewhere

Nothing that a scan does depends on its position, so what it passes over it passes over
just so at any other position.
-/

/-- The scan at another position: `b` bytes in front of it stand where `a` did. -/
def moved (a b : Nat) (s : Scan) : Scan :=
  { s with position := s.position - a + b }

theorem Advances.position_le_next (h : Advances s t next) : s.position ≤ next.position := by
  obtain ⟨⟩ := h
  exact Nat.le_trans (Nat.le_add_right _ _) (Nat.le_add_right _ _)

theorem Advances.moved {a b : Nat} (ha : a ≤ s.position) (h : Advances s t next) :
    Advances (s.moved a b) (t.moved a b) (next.moved a b) := by
  obtain @⟨machine, machine', position, blanks, raw, rest, lexeme, blank, reading, accepted⟩ := h
  have htoken : position + byteLength blanks - a + b = position - a + b + byteLength blanks := by
    have : a ≤ position := ha
    omega
  have hnext : position + byteLength blanks + byteLength raw - a + b =
      position - a + b + byteLength blanks + byteLength raw := by
    have : a ≤ position := ha
    omega
  simp only [Scan.moved, Tile.moved, Token.moved, Lexeme.token, htoken, hnext]
  exact .mk blank reading accepted

theorem Passes.moved {a b : Nat} (ha : a ≤ s.position) (h : Passes s ts last) :
    Passes (s.moved a b) (ts.map (Tile.moved a b)) (last.moved a b) := by
  induction h with
  | nil => exact .nil
  | cons step _ ih =>
      have hle : a ≤ _ := Nat.le_trans ha step.position_le_next
      exact .cons (step.moved ha) (ih hle)

/-! ### The same steps in front of another text -/

/-- What a scan passes over it passes over in front of another text, if each lexeme is read
just so in front of that text. -/
theorem Passes.with_rest {back' : List Char} (h : Passes s ts mid)
    (hread : ∀ (vs us : List Tile) {t : Tile} {place next : Scan} {l : Lexeme},
      ts = vs ++ t :: us → Advances place t next → Passes next us mid →
      Lexeme.Reading t.raw next.rest l → l.symbol.kind = t.token.kind →
      place.machine.accept l.symbol = some next.machine →
      Lexeme.Reading t.raw (us.flatMap Tile.written ++ back') l) :
    Passes { s with rest := ts.flatMap Tile.written ++ back' } ts { mid with rest := back' } := by
  induction h with
  | nil => exact .nil
  | @cons s next mid t ts step steps ih =>
      have hnext := ih fun vs us _ _ _ _ hts => hread (t :: vs) us (congrArg (t :: ·) hts)
      obtain ⟨blank, reading, accepted⟩ := step
      have hnew := hread [] ts rfl (.mk blank reading accepted) steps reading rfl accepted
      simp only [List.flatMap_cons, Tile.written, List.append_assoc]
      exact .cons (.mk blank hnew accepted) hnext

/-! ### Steps can be checked

A step is a computation, so whether a scan passes over given tiles can be decided by taking
it that far.
-/

theorem Advances.blanks_eq (h : Advances s t next) : t.blanks = s.rest.takeWhile isBlank := by
  obtain ⟨blank, reading, -⟩ := h
  exact (takeWhile_append_stops blank (stops_isBlank_of_reading reading)).symm

theorem advances_iff : Advances s t next ↔ s.step = .accepted t.token next ∧
    t.blanks = s.rest.takeWhile isBlank ∧ s.rest = t.written ++ next.rest := by
  constructor
  · intro h
    exact ⟨h.step, h.blanks_eq, h.rest_eq⟩
  · rintro ⟨hstep, hblanks, hrest⟩
    obtain ⟨u, h, htoken⟩ := advances_of_step hstep
    have hblanks' : u.blanks = t.blanks := h.blanks_eq.trans hblanks.symm
    have hwritten : u.written = t.written := List.append_cancel_right (h.rest_eq.symm.trans hrest)
    rw [Tile.written, Tile.written, hblanks'] at hwritten
    have hraw : u.raw = t.raw := List.append_cancel_left hwritten
    obtain ⟨blanks, raw, token⟩ := t
    obtain ⟨_, _, _⟩ := u
    simp only at hblanks' hraw htoken
    subst hblanks' hraw htoken
    exact h

instance : Decidable (Advances s t next) :=
  decidable_of_iff _ advances_iff.symm

theorem passes_nil_iff : Passes s [] last ↔ s = last :=
  ⟨fun h => by cases h; rfl, fun h => h ▸ .nil⟩

theorem passes_cons_iff (h : s.step = .accepted token next) :
    Passes s (t :: ts) last ↔ Advances s t next ∧ Passes next ts last := by
  constructor
  · intro hpasses
    cases hpasses with
    | cons step steps =>
        obtain ⟨-, rfl⟩ := Step.accepted.inj (h.symm.trans step.step)
        exact ⟨step, steps⟩
  · rintro ⟨step, steps⟩
    exact .cons step steps

theorem not_passes_cons (h : ∀ token next, s.step ≠ .accepted token next) :
    ¬ Passes s (t :: ts) last := by
  intro hpasses
  cases hpasses with
  | cons step _ => exact h _ _ step.step

instance decidablePasses (s : Scan) :
    (ts : List Tile) → (last : Scan) → Decidable (Passes s ts last)
  | [], _ => decidable_of_iff _ passes_nil_iff.symm
  | _ :: ts, last =>
    match h : s.step with
    | .accepted _ next =>
      have := decidablePasses next ts last
      decidable_of_iff _ (passes_cons_iff h).symm
    | .finished _ => .isFalse (not_passes_cons (by simp [h]))
    | .malformed _ => .isFalse (not_passes_cons (by simp [h]))
    | .refused _ => .isFalse (not_passes_cons (by simp [h]))

/-! ### Where a query ends -/

theorem readToken_finished {position : Nat} (h : s.readToken = .finished position) :
    s.rest = [] ∧ position = s.position := by
  unfold readToken at h
  split at h
  · rename_i hrest
    exact ⟨hrest, (Step.finished.inj h).symm⟩
  · split at h
    · cases h
    · split at h <;> cases h

theorem step_of_all_blank (h : ∀ c ∈ s.rest, isBlank c = true) :
    s.step = .finished (s.position + byteLength s.rest) := by
  obtain ⟨machine, position, rest⟩ := s
  have hstep : Scan.step ⟨machine, position, rest ++ []⟩ =
      Scan.readToken ⟨machine, position + byteLength rest, []⟩ :=
    step_of_blanks h Stops.nil
  rw [List.append_nil] at hstep
  rw [hstep]
  rfl

theorem all_blank_of_step {position : Nat} (h : s.step = .finished position) :
    ∀ c ∈ s.rest, isBlank c = true := by
  obtain ⟨hrest, -⟩ := readToken_finished h
  exact List.dropWhile_eq_nil_iff.mp hrest

theorem tokens_run_of_not_accepted (h : ∀ token next, s.step ≠ .accepted token next) :
    s.run.tokens = [] := by
  cases hstep : s.step with
  | finished position => rw [run_of_finished hstep]
  | malformed error => rw [run_of_malformed hstep]
  | refused token => rw [run_of_refused hstep]
  | accepted token next => exact absurd hstep (h token next)

theorem run_ending_finished {machine : Machine} {position : Nat} (last : Scan)
    (h : ∀ token next, last.step ≠ .accepted token next)
    (hend : last.run.ending = .finished machine position) :
    last.step = .finished position := by
  cases hstep : last.step with
  | finished p =>
      rw [run_of_finished hstep] at hend
      obtain ⟨-, rfl⟩ := Ending.finished.inj hend
      rfl
  | malformed error =>
      rw [run_of_malformed hstep] at hend
      cases hend
  | refused token =>
      rw [run_of_refused hstep] at hend
      cases hend
  | accepted token next => exact absurd hstep (h token next)

end Scan

/-- Whether a trace comes to an error does not depend on the tokens in front of it. -/
theorem Trace.result_of_ending {t u : Trace} {error : SyntaxError} (hending : t.ending = u.ending)
    (h : t.result = .error error) : u.result = .error error := by
  rw [result, hending] at h
  rw [result]
  split at h
  · cases h
  · exact h
  · exact h

/-- A trace comes to a stream where the query has ended. -/
theorem Trace.exists_finished {t : Trace} {s : TokenStream} (h : t.result = .ok s) :
    ∃ machine position, t.ending = .finished machine position ∧ s = .close t.tokens position := by
  rw [result] at h
  split at h
  · rename_i machine position hending
    exact ⟨machine, position, hending, (Except.ok.inj h).symm⟩
  · cases h
  · cases h

open Scan

variable {query : String} {s : TokenStream} {ts : List Tile} {mid last : Scan}

/-- A scan whose tiles lead to where only blanks are left comes to its end. -/
theorem Scan.Passes.run_of_blank {s : Scan} (h : Passes s ts last)
    (hblank : ∀ c ∈ last.rest, isBlank c = true) :
    s.run = ⟨ts.map Tile.token, .finished last.machine (s.position + byteLength s.rest)⟩ := by
  rw [h.run, run_of_finished (step_of_all_blank hblank), h.position, List.append_nil]

theorem Scan.size_start (query : String) :
    (Scan.start query).position + byteLength (Scan.start query).rest = query.utf8ByteSize := by
  rw [Scan.start, Nat.zero_add, byteLength_toList]

/-- A query whose tiles lead to where only blanks are left is accepted. -/
theorem tokenize_of_passes (h : Passes (Scan.start query) ts last)
    (hblank : ∀ c ∈ last.rest, isBlank c = true) :
    tokenize query = .ok (.close (ts.map Tile.token) query.utf8ByteSize) := by
  rw [tokenize, h.run_of_blank hblank, size_start]
  rfl

/-- A text whose tiles lead to where only blanks are left is accepted. -/
theorem tokenize_ofList_of_passes {text : List Char} (h : Passes ⟨.start, 0, text⟩ ts last)
    (hblank : ∀ c ∈ last.rest, isBlank c = true) :
    tokenize (String.ofList text) = .ok (.close (ts.map Tile.token) (byteLength text)) := by
  have hsize := byteLength_toList (String.ofList text)
  rw [String.toList_ofList] at hsize
  rw [hsize]
  refine tokenize_of_passes ?_ hblank
  rwa [Scan.start, String.toList_ofList]

/-- A scan that comes to its end has tiles that lead to where only blanks are left. -/
theorem Scan.exists_passes_of_ending {s : Scan} {machine : Machine} {position : Nat}
    (h : s.run.ending = .finished machine position) :
    ∃ last, Passes s s.tiles last ∧ ∀ c ∈ last.rest, isBlank c = true := by
  obtain ⟨last, hpasses, hlast⟩ := exists_passes s
  rw [hpasses.run] at h
  exact ⟨last, hpasses, all_blank_of_step (run_ending_finished last hlast h)⟩

/-- From any place in an accepted query the tiles lead to where only blanks are left. -/
theorem Scan.Passes.to_end (hpasses : Passes (Scan.start query) ts mid)
    (h : tokenize query = .ok s) :
    ∃ last, Passes mid mid.tiles last ∧ ∀ c ∈ last.rest, isBlank c = true := by
  obtain ⟨machine, position, hending, -⟩ := Trace.exists_finished h
  rw [hpasses.run] at hending
  exact exists_passes_of_ending hending

/-- The tiles of an accepted query lead to where only blanks are left. -/
theorem passes_of_tokenize (h : tokenize query = .ok s) :
    ∃ last, Passes (Scan.start query) (Scan.start query).tiles last ∧
      ∀ c ∈ last.rest, isBlank c = true :=
  Passes.nil.to_end h

/-- **A query is accepted exactly when its tiles lead to where only blanks are left**,
and its tokens are then those of the tiles. -/
theorem tokenize_eq_ok_iff : tokenize query = .ok s ↔
    s = .close ((Scan.start query).tiles.map Tile.token) query.utf8ByteSize ∧
      ∃ last, Passes (Scan.start query) (Scan.start query).tiles last ∧
        ∀ c ∈ last.rest, isBlank c = true := by
  constructor
  · intro h
    obtain ⟨last, hpasses, hblank⟩ := passes_of_tokenize h
    have hok := tokenize_of_passes hpasses hblank
    exact ⟨Except.ok.inj (h.symm.trans hok), last, hpasses, hblank⟩
  · rintro ⟨rfl, last, hpasses, hblank⟩
    exact tokenize_of_passes hpasses hblank

/-- The scan of an accepted query comes to its end. -/
theorem exists_run_of_tokenize (h : tokenize query = .ok s) :
    ∃ tokens machine,
      (Scan.start query).run = ⟨tokens, .finished machine query.utf8ByteSize⟩ ∧
        s = .close tokens query.utf8ByteSize := by
  obtain ⟨last, hpasses, hblank⟩ := passes_of_tokenize h
  have hrun := hpasses.run_of_blank hblank
  rw [size_start] at hrun
  have hok := tokenize_of_passes hpasses hblank
  exact ⟨_, _, hrun, Except.ok.inj (h.symm.trans hok)⟩

/-- Where a token of an accepted query stands. -/
theorem exists_site (h : tokenize query = .ok s) {t : Tile} (ht : t ∈ (Scan.start query).tiles)
    {front back : List Char} (hquery : query.toList = front ++ (t.raw ++ back))
    (hfront : byteLength front = t.token.position) :
    ∃ ts us mid next last, Passes (Scan.start query) ts mid ∧ Advances mid t next ∧
      Passes next us last ∧ (∀ c ∈ last.rest, isBlank c = true) ∧
        (Scan.start query).tiles = ts ++ t :: us ∧ front = ts.flatMap Tile.written ++ t.blanks ∧
          back = next.rest := by
  obtain ⟨ts, us, htiles⟩ := List.append_of_mem ht
  obtain ⟨mid, next, hbefore, hplace, rfl⟩ := exists_place htiles
  obtain ⟨last, hafter, hblank⟩ := (hbefore.append (.cons hplace .nil)).to_end h
  obtain ⟨htext, hposition⟩ := hbefore.place hplace
  obtain ⟨rfl, hback⟩ :=
    append_inj_of_byteLength (hquery.symm.trans htext) (hfront.trans hposition)
  exact ⟨ts, next.tiles, mid, next, last, hbefore, hplace, hafter, hblank, htiles, rfl,
    List.append_cancel_left hback⟩

end ResourceQuery

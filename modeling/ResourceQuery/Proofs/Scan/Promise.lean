/-
What is in view when a token is read comes next.

A lexeme that was read in view of another has made a promise that only the next step of
the scan can keep, and that step looks at the text again.  It keeps it: the next token
stands directly behind, is the one that was in view, and is accepted.  Hence no scan ever
ends, or fails, in a context that waits; and what only a promise leads to, a comparison
behind its field, stands nowhere else.
-/
import ResourceQuery.Proofs.Lexeme.Promise
import ResourceQuery.Proofs.Scan.Tiling

namespace ResourceQuery

/-! ### The next token answers -/

namespace Tile

/-- The token is a comparison. -/
def IsComparison (t : Tile) : Prop :=
  t.token.kind = .operator ∧ Comparison.Spelled t.raw

/-- The token is the name of an operator that is called. -/
def IsCall (t : Tile) : Prop :=
  t.token.kind = .operator ∧ ¬ Comparison.Spelled t.raw

/-- The token is one that a context can wait for. -/
def Answers (t : Tile) : Symbol → Prop
  | .comparison => t.IsComparison
  | a => t.token.kind = a.kind

/-- The first of two tokens was read in view of the second: an operator in front of its
parenthesis, the name of a type in front of its colon, or text in front of a comparison. -/
def Joined (t u : Tile) : Prop :=
  t.IsCall ∧ u.token.kind = .openParenthesis ∨
    t.token.kind = .typeName ∧ u.token.kind = .colon ∨
      t.token.kind = .string ∧ u.IsComparison

end Tile

namespace Scan

variable {s next last mid : Scan} {t u : Tile} {ts us : List Tile} {a : Symbol}

theorem Advances.awaited?_of_call (h : Advances s t next) (ht : t.IsCall) :
    next.machine.context.awaited? = some (.plain .openParenthesis) := by
  obtain ⟨-, reading, accepted⟩ := h
  rcases reading.symbol_of_operator ht.1 with ⟨-, hspelled⟩ | ⟨hsymbol, -⟩
  · exact absurd hspelled ht.2
  · rw [(Machine.move_of_accept accepted).awaited?_eq, hsymbol]
    rfl

theorem Advances.awaited?_of_typeName (h : Advances s t next) (ht : t.token.kind = .typeName) :
    next.machine.context.awaited? = some (.plain .colon) := by
  obtain ⟨-, reading, accepted⟩ := h
  rw [(Machine.move_of_accept accepted).awaited?_eq, Symbol.eq_of_kind_typeName ht]
  rfl

/-- A comparison is accepted only where a field was promised one. -/
theorem Advances.awaited?_of_comparison (h : Advances s t next) (ht : t.IsComparison) :
    s.machine.context.awaited? = some .comparison := by
  obtain ⟨-, reading, accepted⟩ := h
  rcases reading.symbol_of_operator ht.1 with ⟨hsymbol, -⟩ | ⟨-, hspelled⟩
  · rw [hsymbol] at accepted
    rw [Machine.context_of_accept_comparison accepted]
    rfl
  · exact absurd ht.2 hspelled

/-- Where a colon is next, the name of a type has just been accepted. -/
theorem Advances.typeName_of_colon (h : Advances s t next) (hnext : Advances next u last)
    (hcolon : next.rest.head? = some ':') : t.token.kind = .typeName := by
  obtain ⟨-, -, accepted⟩ := h
  obtain ⟨blank, reading, accepted'⟩ := hnext
  rename_i blanks raw rest l
  obtain ⟨c, cs, rfl, hc⟩ := reading.exists_cons
  have hblanks : blanks = [] := by
    cases blanks with
    | nil => rfl
    | cons d ds =>
        obtain rfl := Option.some.inj hcolon
        cases blank ':' List.mem_cons_self
  subst hblanks
  obtain rfl := Option.some.inj hcolon
  have hl : Lexeme.read ':' (cs ++ rest) = .ok l := reading.read rfl
  obtain rfl : Lexeme.verbatim .colon [':'] = l := Except.ok.inj hl
  exact congrArg Symbol.kind (Machine.typeName_of_colon accepted accepted')

theorem answers_of_reading {raw rest blanks : List Char} {l : Lexeme} {position : Nat}
    (h : Lexeme.Reading raw rest l) :
    Tile.Answers ⟨blanks, raw, l.token position⟩ l.symbol := by
  cases hsymbol : l.symbol with
  | plain kind => exact congrArg Symbol.kind hsymbol
  | field => exact congrArg Symbol.kind hsymbol
  | comparison =>
      have hkind : l.symbol.kind = .operator := congrArg Symbol.kind hsymbol
      rcases h.symbol_of_operator hkind with ⟨-, hspelled⟩ | ⟨hcall, -⟩
      · exact ⟨hkind, hspelled⟩
      · rw [hsymbol] at hcall
        cases hcall

/-- Where a symbol is awaited, the next token answers, and it stands right behind the one
in front of it. -/
theorem Advances.exists_answer (h : Advances s t next)
    (ha : next.machine.context.awaited? = some a) :
    ∃ u last, Advances next u last ∧ u.token.position = t.stop ∧ u.Answers a := by
  have hstop := h.stop
  obtain ⟨-, reading, accepted⟩ := h
  have hpromised := (Machine.move_of_accept accepted).awaited?_eq
  obtain ⟨raw, rest, l, rfl, hreading, rfl⟩ := reading.exists_promised (hpromised ▸ ha)
  obtain ⟨machine, haccept⟩ := Machine.exists_accept_of_awaited? ha
  have hnone : ∀ c ∈ ([] : List Char), isBlank c = true := by simp
  exact ⟨_, _, .mk hnone hreading haccept, hstop, answers_of_reading hreading⟩

/-- A scan in front of which nothing is awaited comes to where something is by a token. -/
theorem Passes.exists_promise (h : Passes s ts mid) (hs : s.machine.context.awaited? = none)
    (ha : mid.machine.context.awaited? = some a) :
    ∃ us t front, ts = us ++ [t] ∧ Passes s us front ∧ Advances front t mid := by
  rcases h.last_cases with ⟨-, rfl⟩ | hlast
  · rw [hs] at ha
    cases ha
  · exact hlast

/-- What is promised a comparison is text. -/
theorem Advances.kind_of_promised (h : Advances s t next)
    (ha : next.machine.context.awaited? = some .comparison) : t.token.kind = .string := by
  obtain ⟨-, -, accepted⟩ := h
  rw [(Machine.move_of_accept accepted).awaited?_eq] at ha
  rcases Symbol.promised?_cases ha with ⟨-, h⟩ | ⟨-, h⟩ | ⟨hfield, -⟩
  · cases h
  · cases h
  · exact congrArg Symbol.kind hfield

/-- Where something is awaited between two tokens, the first was read in view of the
second. -/
theorem Advances.joined (h : Advances s t next) (hnext : Advances next u last)
    (ha : next.machine.context.awaited? = some a) : t.Joined u := by
  obtain ⟨v, last', hanswer, -, hanswers⟩ := h.exists_answer ha
  -- the answer is the second token, for a scan goes on in one way only
  have hsame : u :: last.tiles = v :: last'.tiles :=
    (tiles_of_advances hnext).symm.trans (tiles_of_advances hanswer)
  obtain ⟨rfl, -⟩ := List.cons.inj hsame
  obtain ⟨-, reading, accepted⟩ := h
  rw [(Machine.move_of_accept accepted).awaited?_eq] at ha
  rcases Symbol.promised?_cases ha with ⟨hsymbol, rfl⟩ | ⟨hsymbol, rfl⟩ | ⟨hsymbol, rfl⟩
  · have hkind := congrArg Symbol.kind hsymbol
    rcases reading.symbol_of_operator hkind with ⟨hcomparison, -⟩ | ⟨-, hspelled⟩
    · rw [hsymbol] at hcomparison
      cases hcomparison
    · exact .inl ⟨⟨hkind, hspelled⟩, hanswers⟩
  · exact .inr (.inl ⟨congrArg Symbol.kind hsymbol, hanswers⟩)
  · exact .inr (.inr ⟨congrArg Symbol.kind hsymbol, hanswers⟩)

/-- A scan in front of which nothing is awaited accepts a token wherever something is. -/
theorem Passes.exists_step (h : Passes s ts mid) (hs : s.machine.context.awaited? = none)
    (ha : mid.machine.context.awaited? ≠ none) :
    ∃ token next, mid.step = .accepted token next := by
  obtain ⟨a, ha⟩ := Option.ne_none_iff_exists'.mp ha
  obtain ⟨us, t, front, -, -, hlast⟩ := h.exists_promise hs ha
  obtain ⟨u, next, hnext, -⟩ := hlast.exists_answer ha
  exact ⟨u.token, next, hnext.step⟩

theorem awaited?_of_run_ending {machine : Machine} {position : Nat}
    (hs : s.machine.context.awaited? = none) (h : s.run.ending = .finished machine position) :
    machine.context.awaited? = none := by
  obtain ⟨last, hpasses, hlast⟩ := exists_passes s
  rw [hpasses.run] at h
  have hstep := run_ending_finished last hlast h
  rw [run_of_finished hstep] at h
  obtain ⟨rfl, -⟩ := Ending.finished.inj h
  by_contra ha
  obtain ⟨token, next, hnext⟩ := hpasses.exists_step hs ha
  exact hlast token next hnext

/-- A tile that leaves a symbol awaited has the answer behind it. -/
theorem exists_answer_of_tiles (h : s.tiles = ts ++ t :: us)
    (ha : ∀ {mid next : Scan}, Advances mid t next → next.machine.context.awaited? = some a) :
    ∃ u vs, us = u :: vs ∧ u.token.position = t.stop ∧ u.Answers a ∧
      Denotes u.raw u.token.kind u.token.value := by
  obtain ⟨mid, next, -, hstep, rfl⟩ := exists_place h
  obtain ⟨u, last, hnext, hposition, hanswers⟩ := hstep.exists_answer (ha hstep)
  exact ⟨u, last.tiles, tiles_of_advances hnext, hposition, hanswers, hnext.denotes⟩

end Scan

open Scan

theorem Denotes.eq_openParenthesis {t : Token} {raw : List Char}
    (h : Denotes raw t.kind t.value) (hkind : t.kind = .openParenthesis) :
    t = ⟨.openParenthesis, "(", t.position⟩ := by
  obtain ⟨kind, value, position⟩ := t
  obtain rfl : kind = .openParenthesis := hkind
  obtain ⟨⟨⟩⟩ := h
  rfl

theorem Denotes.eq_colon {t : Token} {raw : List Char}
    (h : Denotes raw t.kind t.value) (hkind : t.kind = .colon) :
    t = ⟨.colon, ":", t.position⟩ := by
  obtain ⟨kind, value, position⟩ := t
  obtain rfl : kind = .colon := hkind
  obtain ⟨⟨⟩⟩ := h
  rfl

/-- What the scan of a query reads in view of the text behind it comes next, and is
accepted, whether or not the query is. -/
structure KeepsPromises (query : String) : Prop where
  /-- Behind a token that leaves the machine behind an operator, `(` is accepted. -/
  operator : ∀ {ts : List Tile} {t : Tile} {s : Scan}, Passes (start query) (ts ++ [t]) s →
    s.machine.context = .afterOperator →
      ∃ u next, Advances s u next ∧ u.token = ⟨.openParenthesis, "(", t.stop⟩
  /-- Behind a token that leaves the machine behind a type, `:` is accepted. -/
  typeName : ∀ {ts : List Tile} {t : Tile} {s : Scan}, Passes (start query) (ts ++ [t]) s →
    s.machine.context = .afterType →
      ∃ u next, Advances s u next ∧ u.token = ⟨.colon, ":", t.stop⟩
  /-- Behind a token that leaves the machine behind a field, a comparison is accepted. -/
  field : ∀ {ts : List Tile} {t : Tile} {s : Scan}, Passes (start query) (ts ++ [t]) s →
    s.machine.context = .afterField →
      ∃ u next, Advances s u next ∧ u.IsComparison ∧ u.token.position = t.stop
  /-- Where a symbol is awaited, the scan neither fails nor ends. -/
  goes_on : ∀ {ts : List Tile} {s : Scan}, Passes (start query) ts s →
    s.machine.context.awaited? ≠ none → ∃ token next, s.step = .accepted token next
  /-- Where a query ends, no symbol is awaited. -/
  ends : ∀ {machine : Machine} {position : Nat},
    (start query).run.ending = .finished machine position → machine.context.awaited? = none
  /-- The tokens of an accepted query are those of its tiles. -/
  tokens : ∀ {s : TokenStream}, tokenize query = .ok s →
    s.toList = (start query).tiles.map Tile.token ++ [Token.sentinel query.utf8ByteSize]
  /-- An operator that is called has its parenthesis directly behind it. -/
  call_followed : ∀ {ts us : List Tile} {t : Tile}, (start query).tiles = ts ++ t :: us →
    t.IsCall → ∃ u vs, us = u :: vs ∧ u.token = ⟨.openParenthesis, "(", t.stop⟩
  /-- The name of a type has its colon directly behind it. -/
  typeName_followed : ∀ {ts us : List Tile} {t : Tile}, (start query).tiles = ts ++ t :: us →
    t.token.kind = .typeName → ∃ u vs, us = u :: vs ∧ u.token = ⟨.colon, ":", t.stop⟩
  /-- A comparison has text directly in front of it. -/
  comparison_preceded : ∀ {ts us : List Tile} {t : Tile}, (start query).tiles = ts ++ t :: us →
    t.IsComparison →
      ∃ vs u, ts = vs ++ [u] ∧ u.token.kind = .string ∧ u.stop = t.token.position

/--
**What was in view when a token was read comes next, and is accepted.**  Behind an
operator that is called, the name of a type, or a field, the next token follows without
a blank and is `(`, `:` or a comparison.  No query ends there and none is refused there;
and no comparison stands anywhere else than directly behind the text it compares.
-/
theorem tokenize_keeps_promises (query : String) : KeepsPromises query where
  operator := by
    intro ts t s h hcontext
    obtain ⟨mid, -, hlast⟩ := h.exists_last
    have ha : s.machine.context.awaited? = some (.plain .openParenthesis) := by rw [hcontext]; rfl
    obtain ⟨u, next, hnext, hposition, hanswers⟩ := hlast.exists_answer ha
    refine ⟨u, next, hnext, ?_⟩
    rw [hnext.denotes.eq_openParenthesis hanswers, hposition]
  typeName := by
    intro ts t s h hcontext
    obtain ⟨mid, -, hlast⟩ := h.exists_last
    have ha : s.machine.context.awaited? = some (.plain .colon) := by rw [hcontext]; rfl
    obtain ⟨u, next, hnext, hposition, hanswers⟩ := hlast.exists_answer ha
    refine ⟨u, next, hnext, ?_⟩
    rw [hnext.denotes.eq_colon hanswers, hposition]
  field := by
    intro ts t s h hcontext
    obtain ⟨mid, -, hlast⟩ := h.exists_last
    have ha : s.machine.context.awaited? = some .comparison := by rw [hcontext]; rfl
    obtain ⟨u, next, hnext, hposition, hanswers⟩ := hlast.exists_answer ha
    exact ⟨u, next, hnext, hanswers, hposition⟩
  goes_on := by
    intro ts s h ha
    exact h.exists_step rfl ha
  ends := by
    intro machine position h
    exact awaited?_of_run_ending rfl h
  tokens := by
    intro s h
    obtain ⟨rfl, -⟩ := tokenize_eq_ok_iff.mp h
    exact TokenStream.toList_close _ _
  call_followed := by
    intro ts us t h ht
    obtain ⟨u, vs, hus, hposition, hanswers, hdenotes⟩ :=
      exists_answer_of_tiles h fun hstep => hstep.awaited?_of_call ht
    exact ⟨u, vs, hus, hposition ▸ hdenotes.eq_openParenthesis hanswers⟩
  typeName_followed := by
    intro ts us t h ht
    obtain ⟨u, vs, hus, hposition, hanswers, hdenotes⟩ :=
      exists_answer_of_tiles h fun hstep => hstep.awaited?_of_typeName ht
    exact ⟨u, vs, hus, hposition ▸ hdenotes.eq_colon hanswers⟩
  comparison_preceded := by
    intro ts us t h ht
    obtain ⟨mid, next, hfront, hstep, -⟩ := exists_place h
    have ha := hstep.awaited?_of_comparison ht
    obtain ⟨vs, u, front, rfl, -, hlast⟩ := hfront.exists_promise rfl ha
    obtain ⟨v, last, hnext, hposition, -⟩ := hlast.exists_answer ha
    -- the answer is the tile itself, for a scan goes on in one way only
    have htoken : t.token = v.token := (Step.accepted.inj (hstep.step.symm.trans hnext.step)).1
    exact ⟨vs, u, rfl, hlast.kind_of_promised ha, by rw [htoken, hposition]⟩

end ResourceQuery

/-
Blanks may be put between any two tokens but those of which the first was read in view of
the second.

The tokens in front of the place are read as before, for what stands behind it now starts
with a blank (`Passes.apart`); and what is behind the place comes to what it came to,
further on by the blanks (`run_insert_blanks`).  The three pairs of tokens that must stay
together are those at which something is awaited (`Advances.joined`).
-/
import ResourceQuery.Proofs.Scan.Seam
import ResourceQuery.Proofs.Scan.Shift

namespace ResourceQuery

open Scan

variable {query : String} {ts us : List Tile} {t : Tile} {s mid next last : Scan}
  {front back blanks more : List Char}

namespace Scan

/-! ### Where the place is -/

theorem Passes.stop_le (h : Passes (start query) ts mid) {n : Nat} (hle : ∀ t ∈ ts, t.stop ≤ n) :
    mid.position ≤ n := by
  rcases h.last_cases with ⟨-, rfl⟩ | ⟨us, t, front, rfl, -, hlast⟩
  · exact Nat.zero_le n
  · rw [hlast.stop]
    exact hle t (by simp)

/-- Between two tokens there are only blanks. -/
theorem exists_blanks (hfront : Passes (start query) ts mid) (hback : Passes mid us last)
    (hlast : ∀ c ∈ last.rest, isBlank c = true) (hquery : query.toList = front ++ back)
    (hle : ∀ t ∈ ts, t.stop ≤ byteLength front)
    (hge : ∀ u ∈ us, byteLength front ≤ u.token.position) :
    ∃ blanks, (∀ c ∈ blanks, isBlank c = true) ∧
      front = ts.flatMap Tile.written ++ blanks ∧ mid.rest = blanks ++ back := by
  have htext : ts.flatMap Tile.written ++ mid.rest = front ++ back :=
    hfront.rest_eq.symm.trans hquery
  have hposition : mid.position = byteLength (ts.flatMap Tile.written) := by
    have hsize : mid.position + byteLength mid.rest = 0 + byteLength query.toList :=
      hfront.position
    rw [show query.toList = _ from hfront.rest_eq, byteLength_append] at hsize
    omega
  obtain ⟨blanks, rfl, hrest⟩ :=
    exists_of_byteLength_le htext (hposition ▸ hfront.stop_le hle)
  refine ⟨blanks, ?_, rfl, hrest⟩
  intro c hc
  cases hback with
  | nil => exact hlast c (hrest ▸ List.mem_append_left back hc)
  | @cons _ next _ u us step _ =>
      have hcut : blanks ++ back = u.blanks ++ (u.raw ++ next.rest) := by
        rw [← hrest, step.rest_eq, Tile.written, List.append_assoc]
      have hle : byteLength blanks ≤ byteLength u.blanks := by
        have hbefore := hge u List.mem_cons_self
        rw [byteLength_append, step.position_eq] at hbefore
        omega
      obtain ⟨y, hy, -⟩ := exists_of_byteLength_le hcut hle
      exact step.blank c (hy ▸ List.mem_append_left y hc)

/-- Where the tokens on either side were not read in view of one another, nothing is
awaited. -/
theorem awaited?_of_not_joined (hfront : Passes (start query) ts mid) (hback : Passes mid us last)
    (hlast : ∀ token next, last.step ≠ .accepted token next)
    (hjoined : ∀ t ∈ ts.getLast?, ∀ u ∈ us.head?, ¬ t.Joined u) :
    mid.machine.context.awaited? = none := by
  by_contra ha
  obtain ⟨a, ha⟩ := Option.ne_none_iff_exists'.mp ha
  obtain ⟨vs, t, place, rfl, -, hplace⟩ := hfront.exists_promise rfl ha
  cases hback with
  | nil =>
      obtain ⟨u, next, hnext, -⟩ := hplace.exists_answer ha
      exact hlast _ _ hnext.step
  | cons step _ =>
      exact hjoined t (by simp) _ rfl (hplace.joined step ha)

theorem apart_of_blanks (hmore : ∀ c ∈ more, isBlank c = true) (hne : more ≠ []) :
    Apart (more ++ back) := by
  obtain ⟨d, more, rfl⟩ := List.exists_cons_of_ne_nil hne
  intro c hc
  obtain rfl := Option.some.inj hc
  exact hmore _ List.mem_cons_self

/-- With more blanks behind the tokens it has passed over, a scan comes to what it came to,
further on. -/
theorem Passes.run_insert_blanks (h : Passes s ts mid) (ha : mid.machine.context.awaited? = none)
    (hrest : mid.rest = blanks ++ back) (hblanks : ∀ c ∈ blanks, isBlank c = true)
    (hmore : ∀ c ∈ more, isBlank c = true) (hne : more ≠ []) :
    Scan.run { s with rest := ts.flatMap Tile.written ++ (blanks ++ (more ++ back)) } =
      ⟨ts.map Tile.token ++ (mid.run.moved 0 (byteLength more)).tokens,
        (mid.run.moved 0 (byteLength more)).ending⟩ := by
  have hapart : Apart (blanks ++ (more ++ back)) := by
    rw [← List.append_assoc]
    refine apart_of_blanks ?_ (List.append_ne_nil_of_right_ne_nil blanks hne)
    intro c hc
    exact (List.mem_append.mp hc).elim (hblanks c) (hmore c)
  obtain ⟨machine, position, rest⟩ := mid
  simp only at hrest
  subst hrest
  rw [(h.apart ha hapart).run, Scan.run_insert_blanks hblanks hmore]

end Scan

/--
**Blanks may be put between any two tokens that were not read in view of one another**, and
in front of the first and behind the last.  The query is accepted again, with the same
tokens; those in front of the place are where they were, and those behind it, the sentinel
among them, are further on by the blanks.
-/
theorem tokenize_insert_blanks {s : TokenStream} (h : tokenize query = .ok s)
    {ts us : List Tile} (htiles : (Scan.start query).tiles = ts ++ us)
    (hjoined : ∀ t ∈ ts.getLast?, ∀ u ∈ us.head?, ¬ t.Joined u) {front back : String}
    (hquery : query = front ++ back) (hfront : ∀ t ∈ ts, t.stop ≤ front.utf8ByteSize)
    (hback : ∀ u ∈ us, front.utf8ByteSize ≤ u.token.position) {w : String}
    (hw : ∀ c ∈ w.toList, isBlank c = true) :
    s.toList = ts.map Tile.token ++ (us.map Tile.token ++ [Token.sentinel query.utf8ByteSize]) ∧
      ∃ s', tokenize (front ++ w ++ back) = .ok s' ∧
        s'.toList = ts.map Tile.token ++ (us.map Tile.token ++
          [Token.sentinel query.utf8ByteSize]).map (Token.moved 0 w.utf8ByteSize) := by
  obtain ⟨rfl, last, hpasses, hblank⟩ := tokenize_eq_ok_iff.mp h
  rw [htiles] at hpasses
  obtain ⟨mid, hbefore, hafter⟩ := hpasses.split
  have hlast : ∀ token next, last.step ≠ .accepted token next := by
    rw [step_of_all_blank hblank]
    exact nofun
  have ha := awaited?_of_not_joined hbefore hafter hlast hjoined
  simp only [← byteLength_toList front] at hfront hback
  obtain ⟨blanks, hblanks, htext, hrest⟩ := exists_blanks hbefore hafter hblank
    (by rw [hquery, String.toList_append]) hfront hback
  refine ⟨by rw [htiles, TokenStream.toList_close, List.map_append, List.append_assoc], ?_⟩
  -- with no blanks to put there, what stands behind the place need not stand apart
  by_cases hne : w.toList = []
  · obtain rfl : w = "" := String.toList_eq_nil_iff.mp hne
    refine ⟨_, by rwa [String.append_empty, ← hquery], ?_⟩
    rw [htiles, TokenStream.toList_close, List.map_append, List.append_assoc]
    simp [Token.moved]
  · have hmid : mid.run = ⟨us.map Tile.token, .finished last.machine query.utf8ByteSize⟩ := by
      rw [hafter.run_of_blank hblank, hbefore.position, size_start]
    have hresult : mid.run.result = .ok (.close (us.map Tile.token) query.utf8ByteSize) := by
      rw [hmid]
      rfl
    have hrun := hbefore.run_insert_blanks ha hrest hblanks hw hne
    rw [byteLength_toList] at hrun
    have hstart : Scan.start (front ++ w ++ back) =
        { Scan.start query with
          rest := ts.flatMap Tile.written ++ (blanks ++ (w.toList ++ back.toList)) } := by
      simp [Scan.start, htext]
    obtain ⟨s', hs', htokens⟩ := Trace.exists_result_moved hresult (ts.map Tile.token)
    refine ⟨s', ?_, ?_⟩
    · rw [tokenize, hstart, hrun]
      exact hs'
    · rw [htokens, TokenStream.toList_close]

/-- The sign in `sort(-1e%35)` may have blanks behind it. -/
theorem tokenize_insert_blanks_behind_sign :
    tokenize "sort(-1e%35)" = .ok (.close [⟨.operator, "sort", 0⟩, ⟨.openParenthesis, "(", 4⟩,
        ⟨.minus, "-", 5⟩, ⟨.string, "1e5", 6⟩, ⟨.closeParenthesis, ")", 11⟩] 12) ∧
      ∃ s', tokenize ("sort(-" ++ " \t" ++ "1e%35)") = .ok s' ∧
        s'.toList = [⟨.operator, "sort", 0⟩, ⟨.openParenthesis, "(", 4⟩, ⟨.minus, "-", 5⟩,
          ⟨.string, "1e5", 8⟩, ⟨.closeParenthesis, ")", 13⟩, Token.sentinel 14] := by
  have h : tokenize "sort(-1e%35)" = .ok (.close [⟨.operator, "sort", 0⟩,
      ⟨.openParenthesis, "(", 4⟩, ⟨.minus, "-", 5⟩, ⟨.string, "1e5", 6⟩,
      ⟨.closeParenthesis, ")", 11⟩] 12) := by
    decide +kernel
  have htiles : (Scan.start "sort(-1e%35)").tiles =
      [⟨[], ['s', 'o', 'r', 't'], ⟨.operator, "sort", 0⟩⟩,
        ⟨[], ['('], ⟨.openParenthesis, "(", 4⟩⟩, ⟨[], ['-'], ⟨.minus, "-", 5⟩⟩] ++
      [⟨[], ['1', 'e', '%', '3', '5'], ⟨.string, "1e5", 6⟩⟩,
        ⟨[], [')'], ⟨.closeParenthesis, ")", 11⟩⟩] := by
    decide +kernel
  have hquery : "sort(-1e%35)" = "sort(-" ++ "1e%35)" := by decide +kernel
  have hw : ∀ c ∈ " \t".toList, isBlank c = true := List.all_eq_true.mp rfl
  exact ⟨h, (tokenize_insert_blanks h htiles (by simp [Tile.Joined, Tile.IsCall]) hquery
    (by decide +kernel) (by decide +kernel) hw).2⟩

end ResourceQuery

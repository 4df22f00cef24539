/-
A text may be written with escapes wherever it stands.

The text of a token in an accepted query is replaced by another way to write some
value, with at least one escape in it.  In front of the place, every lexeme is read as
before, for none sees into an escaped text.  At the place a text is read, with the new
value, and it is a field exactly if it was one, for that depends on what stands behind
it.  Behind the place the same text is left with the same machine, at a position that is
off by the difference in length.
-/
import ResourceQuery.Proofs.Lexeme.Lookahead
import ResourceQuery.Proofs.Scan.Promise

namespace ResourceQuery

/-- A text written with at least one escape: the characters that stand for themselves are
those a literal may have, and a `-` is not the first of them. -/
structure EscapedAs (e : List Char) (value : String) : Prop extends EscapedText e where
  head : e.head? ≠ some '-'
  encodes : ∃ bs, Encodes e bs ∧ value.toByteArray = bs.toByteArray

/-! ### At the place -/

theorem EscapedAs.reading {e rest : List Char} {value : String} (h : EscapedAs e value)
    (hends : Stops continuesLiteral rest) (hcolon : rest.head? ≠ some ':') :
    Lexeme.Reading e rest ⟨Lexeme.textSymbol rest, value, e.length⟩ := by
  obtain ⟨bs, hencodes, hbytes⟩ := h.encodes
  obtain ⟨ps, hps, rfl, rfl⟩ : ∃ ps,
      Span.piecesOf (Date.opensWith Date.dayShape (e ++ rest)) (e ++ rest) = ps ∧
        ps.flatMap Piece.text = e ∧ ps.flatMap Piece.bytes = bs :=
    Span.exists_pieces_of_encodes hencodes h.chars hends hcolon
  have hwhole : Span.read ((Span.mk ps).text ++ rest) = ⟨ps⟩ := congrArg Span.mk hps
  have hdecoded : (Span.mk ps).decoded? = some value := fromUTF8?_eq_some_iff.mpr hbytes
  exact .escaped h.head hwhole hends (Span.isEscaped_of_mem hps h.escape) hdecoded

/-! ### In front of the place -/

namespace Scan

variable {s next last mid : Scan} {t u : Tile} {ts us : List Tile}

theorem Passes.typeName_of_colon (h : Advances s t next) (hsteps : Passes next ts last)
    (hblank : ∀ c ∈ last.rest, isBlank c = true) (hcolon : next.rest.head? = some ':') :
    t.token.kind = .typeName := by
  cases hsteps with
  | nil =>
      obtain ⟨rest, hrest⟩ := List.head?_eq_some_iff.mp hcolon
      have := hblank ':' (hrest ▸ List.mem_cons_self)
      cases this
  | cons step _ => exact h.typeName_of_colon step hcolon

/-- In front of a literal that gives way to an escaped text, all is passed over as
before. -/
theorem Passes.replace {e rest tail : List Char} {c : Char} (hc : continuesLiteral c = true)
    (he : EscapedText e) (h : Passes s ts mid) (hmid : Advances mid t next)
    (hraw : mid.rest = t.blanks ++ c :: tail) :
    Passes { s with rest := ts.flatMap Tile.written ++ (t.blanks ++ (e ++ rest)) } ts
      { mid with rest := t.blanks ++ (e ++ rest) } := by
  refine h.with_rest ?_
  intro vs us u place next' l _ hstep hsteps reading hkind _
  have hgap : next'.rest = (us.flatMap Tile.written ++ t.blanks) ++ c :: tail := by
    rw [hsteps.rest_eq, hraw, List.append_assoc]
  have hcolon : next'.rest.head? = some ':' → l.symbol.kind = .typeName := by
    intro hcolon
    rw [hkind]
    cases hsteps with
    | nil => exact hstep.typeName_of_colon hmid hcolon
    | cons step' _ => exact hstep.typeName_of_colon step' hcolon
  rw [hgap] at reading hcolon
  rw [← List.append_assoc]
  exact reading.replace hc he hcolon

theorem Advances.exists_literal (h : Advances s t next) (hkind : t.token.kind = .string) :
    ∃ c tail, s.rest = t.blanks ++ c :: tail ∧ continuesLiteral c = true := by
  obtain ⟨-, reading, -⟩ := h
  obtain ⟨-, -, c, cs, rfl, hc⟩ := reading.of_string hkind
  exact ⟨c, _, rfl, hc⟩

/-- At the place, the new text is a token with the new value. -/
theorem Advances.replace_token {e : List Char} {value : String} (he : EscapedAs e value)
    (h : Advances s t next) (hkind : t.token.kind = .string)
    (hcolon : next.rest.head? ≠ some ':') :
    Advances { s with rest := t.blanks ++ (e ++ next.rest) }
      ⟨t.blanks, e, ⟨.string, value, t.token.position⟩⟩
      (next.moved (byteLength t.raw) (byteLength e)) := by
  obtain @⟨machine, machine', position, blanks, raw, rest, lexeme, blank, reading, accepted⟩ := h
  obtain ⟨hsymbol, hends, -⟩ := reading.of_string hkind
  rw [hsymbol] at accepted
  have hreading := he.reading hends hcolon
  have htoken : (⟨Lexeme.textSymbol rest, value, e.length⟩ : Lexeme).token
      (position + byteLength blanks) = ⟨.string, value, position + byteLength blanks⟩ := by
    rw [Lexeme.token, kind_textSymbol]
  have hposition : position + byteLength blanks + byteLength raw - byteLength raw + byteLength e =
      position + byteLength blanks + byteLength e := by
    omega
  simp only [Scan.moved, Lexeme.token, hposition]
  exact htoken ▸ .mk blank hreading accepted

/-- A query passed over tile by tile is passed over with the text of one of them
replaced. -/
theorem Passes.replace_token {e : List Char} {value : String} (he : EscapedAs e value)
    (hfront : Passes s ts mid) (hplace : Advances mid t next) (hback : Passes next us last)
    (hblank : ∀ c ∈ last.rest, isBlank c = true) (hkind : t.token.kind = .string) :
    Passes { s with rest := ts.flatMap Tile.written ++ (t.blanks ++ (e ++ next.rest)) }
      (ts ++ ⟨t.blanks, e, ⟨.string, value, t.token.position⟩⟩ ::
        us.map (Tile.moved (byteLength t.raw) (byteLength e)))
      (last.moved (byteLength t.raw) (byteLength e)) := by
  have hcolon : next.rest.head? ≠ some ':' := by
    intro hcolon
    have := hback.typeName_of_colon hplace hblank hcolon
    rw [hkind] at this
    cases this
  obtain ⟨c, tail, hraw, hc⟩ := hplace.exists_literal hkind
  have hle : byteLength t.raw ≤ next.position := by
    obtain ⟨⟩ := hplace
    exact Nat.le_add_left _ _
  exact (hfront.replace hc he.toEscapedText hplace hraw).append
    (.cons (hplace.replace_token he hkind hcolon) (hback.moved hle))

end Scan

open Scan

/--
**A text may be written with escapes wherever it stands.**  In an accepted query, let the
text of any string token give way to any way of writing any value with at least one
escape.  The query is accepted again, and its tokens are the same, but that this one has
the new value and those behind it, the sentinel among them, are at positions that are off
by the difference in length.
-/
theorem tokenize_escaped {query : String} {s : TokenStream} (h : tokenize query = .ok s)
    {t : Tile} (ht : t ∈ (Scan.start query).tiles) (hkind : t.token.kind = .string)
    {front back : List Char} (hquery : query.toList = front ++ (t.raw ++ back))
    (hfront : byteLength front = t.token.position) {e : List Char} {value : String}
    (he : EscapedAs e value) :
    ∃ before after s', s.toList = before ++ t.token :: after ∧
      tokenize (String.ofList (front ++ (e ++ back))) = .ok s' ∧
      s'.toList = before ++ ⟨.string, value, t.token.position⟩ ::
        after.map (Token.moved (byteLength t.raw) (byteLength e)) := by
  obtain ⟨rfl, last, hpasses, hblank⟩ := tokenize_eq_ok_iff.mp h
  obtain ⟨ts, us, htiles⟩ := List.append_of_mem ht
  rw [htiles] at hpasses ⊢
  obtain ⟨mid, hbefore, hrest⟩ := hpasses.split
  cases hrest with
  | @cons _ next _ _ _ hplace hafter =>
      obtain ⟨htext, hposition⟩ := hbefore.place hplace
      obtain ⟨rfl, hback⟩ :=
        append_inj_of_byteLength (hquery.symm.trans htext) (hfront.trans hposition)
      obtain rfl : back = next.rest := List.append_cancel_left hback
      have hnew := hbefore.replace_token he hplace hafter hblank hkind
      have hstart : { Scan.start query with
          rest := ts.flatMap Tile.written ++ (t.blanks ++ (e ++ next.rest)) } =
          Scan.start (String.ofList (ts.flatMap Tile.written ++ t.blanks ++ (e ++ next.rest))) := by
        simp [Scan.start]
      rw [hstart] at hnew
      have hsize : (String.ofList (ts.flatMap Tile.written ++ t.blanks ++
          (e ++ next.rest))).utf8ByteSize =
          query.utf8ByteSize - byteLength t.raw + byteLength e := by
        rw [← byteLength_toList, ← byteLength_toList, hquery, String.toList_ofList]
        simp only [byteLength_append]
        omega
      refine ⟨ts.map Tile.token, us.map Tile.token ++ [Token.sentinel query.utf8ByteSize], _, ?_,
        tokenize_of_passes hnew hblank, ?_⟩
      · rw [TokenStream.toList_close]
        simp
      · rw [TokenStream.toList_close, hsize]
        simp [Token.moved, Token.sentinel, Tile.moved]

/-- The digits behind the sign in `sort(-1e%35)` make no number. -/
theorem tokenize_escaped_after_sign :
    EscapedAs ['1', 'e', '%', '3', '5'] "1e5" ∧
      ∃ before after s',
        (TokenStream.close [⟨.operator, "sort", 0⟩, ⟨.openParenthesis, "(", 4⟩, ⟨.minus, "-", 5⟩,
          ⟨.string, "abc", 6⟩, ⟨.closeParenthesis, ")", 9⟩] 10).toList =
            before ++ ⟨.string, "abc", 6⟩ :: after ∧
        tokenize (String.ofList (['s', 'o', 'r', 't', '(', '-'] ++
          (['1', 'e', '%', '3', '5'] ++ [')']))) = .ok s' ∧
        s'.toList = before ++ ⟨.string, "1e5", 6⟩ :: after.map (Token.moved 3 5) := by
  have he : EscapedAs ['1', 'e', '%', '3', '5'] "1e5" := by
    refine ⟨⟨List.all_eq_true.mp rfl, by decide⟩, by decide, [0x31, 0x65, 0x35], ?_, by decide⟩
    exact .char (by decide) (.char (by decide) (.escape (by decide) (by decide) .nil))
  refine ⟨he, ?_⟩
  have htokenize : tokenize "sort(-abc)" = .ok (.close [⟨.operator, "sort", 0⟩,
      ⟨.openParenthesis, "(", 4⟩, ⟨.minus, "-", 5⟩, ⟨.string, "abc", 6⟩,
      ⟨.closeParenthesis, ")", 9⟩] 10) := by
    decide +kernel
  have htile : (⟨[], ['a', 'b', 'c'], ⟨.string, "abc", 6⟩⟩ : Tile) ∈
      (Scan.start "sort(-abc)").tiles := by
    decide +kernel
  exact tokenize_escaped htokenize htile rfl (by decide) (by decide) he

end ResourceQuery

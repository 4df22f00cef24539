/-
A cast may be put in front of any value.

A name and a colon are put in front of a literal, or of the sign of a name among
arguments.  In front of the place every lexeme is read as before, for what stands there
ends in nothing that a name could go on with: not in a literal, by assumption, and not in a
sign, for behind a sign no value starts.  At the place the machine takes the name of a type
and a colon, and then the value with a cast, which leads where the value led without one.
Behind the place the same text is left with the same machine, further on by the cast.
-/
import ResourceQuery.Proofs.Lexeme.Name
import ResourceQuery.Proofs.Scan.Seam

namespace ResourceQuery

open Grammar (Scalar Sign)

theorem Kind.scalar_of_isScalar {kind : Kind} (h : kind.isScalar = true) :
    Scalar (.plain kind) := by
  cases kind <;> first | constructor | cases h

theorem Machine.context_of_accept_sign {m n : Machine} {s : Symbol} (hs : Sign s)
    (h : m.accept s = some n) : n.context = .afterSign := by
  rw [eq_next_of_accept h, next_of_sign hs]

namespace Scan

variable {s place next last mid : Scan} {t : Tile} {ts us : List Tile}
  {name blanks back : List Char}

theorem Advances.coherent (h : Advances s t next) (hs : s.machine.Coherent) :
    next.machine.Coherent := by
  obtain ⟨-, -, accepted⟩ := h
  exact hs.move (Machine.move_of_accept accepted)

theorem Passes.coherent (h : Passes s ts last) (hs : s.machine.Coherent) :
    last.machine.Coherent := by
  induction h with
  | nil => exact hs
  | cons step _ ih => exact ih (step.coherent hs)

/-! ### In front of the place -/

/-- Behind a token that ends in `+` no value starts. -/
theorem Advances.context_of_plus (h : Advances s t next) (hlast : t.raw.getLast? = some '+') :
    next.machine.context = .afterSign := by
  obtain ⟨-, reading, accepted⟩ := h
  obtain ⟨kind, hsymbol, hkind⟩ := reading.of_last hlast rfl rfl (by decide)
  rcases hkind with hkind | hkind
  · cases hkind
  · obtain rfl := Option.some.inj hkind
    exact Machine.context_of_accept_sign (.inl hsymbol) accepted

/-- What stands in front of a place ends in nothing that a name could go on with, unless it
is a literal or a sign. -/
theorem Passes.clear (h : Passes s ts mid) (hmid : mid.machine.context ≠ .afterSign)
    (hblanks : ∀ c ∈ blanks, isBlank c = true)
    (hliteral : ∀ d ∈ (ts.flatMap Tile.written ++ blanks).getLast?, isLiteral d = false) :
    Clear (ts.flatMap Tile.written ++ blanks) := by
  intro d hd
  refine ⟨hliteral d hd, ?_⟩
  by_cases hnil : blanks = []
  · rw [hnil, List.append_nil] at hd
    rcases h.last_cases with ⟨rfl, -⟩ | ⟨us, t, front, rfl, -, hlast⟩
    · cases hd
    · refine ⟨?_, ?_⟩
      · rintro rfl
        rw [List.flatMap_append, List.flatMap_singleton, hlast.getLast?_append] at hd
        exact hmid (hlast.context_of_plus hd)
      · rintro rfl
        exact (h.seam (by simp)).bang hd
  · rw [List.getLast?_append_of_ne_nil _ hnil] at hd
    have hblank := hblanks d (List.mem_of_getLast? hd)
    refine ⟨?_, ?_⟩ <;> rintro rfl <;> cases hblank

/-- In front of a name and a colon all is passed over as before. -/
theorem Passes.cast_front (h : Passes s ts place) (hplace : Advances place t next)
    (hname : isName name = true) (hclear : Clear (ts.flatMap Tile.written ++ t.blanks)) :
    Passes { s with rest := ts.flatMap Tile.written ++ (t.blanks ++ (name ++ ':' :: back)) } ts
      { place with rest := t.blanks ++ (name ++ ':' :: back) } := by
  refine h.with_rest ?_
  intro vs us u place' next' l hts hstep hsteps reading hkind _
  have hnext : next'.rest = (us.flatMap Tile.written ++ t.blanks) ++ (t.raw ++ next.rest) := by
    rw [hsteps.rest_eq, hplace.rest_eq, Tile.written]
    simp only [List.append_assoc]
  rw [hnext] at reading
  rw [← List.append_assoc]
  refine reading.of_name hname ?_ ?_
  · have hraw : u.raw ++ (us.flatMap Tile.written ++ t.blanks) ≠ [] := by
      obtain ⟨c, cs, hraw, -⟩ := reading.exists_cons
      simp [hraw]
    have htext : (vs ++ u :: us).flatMap Tile.written ++ t.blanks =
        (vs.flatMap Tile.written ++ u.blanks) ++
          (u.raw ++ (us.flatMap Tile.written ++ t.blanks)) := by
      simp [Tile.written]
    rw [hts, htext] at hclear
    exact (Clear.append_left_iff hraw _).mp hclear
  · intro hcolon
    rw [hkind]
    refine (hsteps.append (.cons hplace .nil)).typeName_of_gap hstep ?_
    rw [List.flatMap_append, List.flatMap_singleton, Tile.written, ← List.append_assoc,
      List.head?_append, hcolon, Option.some_or]

/-! ### At the place -/

/-- A cast may stand in front of the token: it is a literal where a value can start, and no
field, or the sign of a name among arguments. -/
def Castable (place : Scan) (t : Tile) (next : Scan) : Prop :=
  t.token.kind.isScalar = true ∧ Machine.StartsValue place.machine.context ∧
      next.machine.context ≠ .afterField ∨
    (t.token.kind = .plus ∨ t.token.kind = .minus) ∧ place.machine.context = .arguments

theorem Castable.context_ne (h : Castable place t next) :
    place.machine.context ≠ .afterSign := by
  intro hsign
  rcases h with ⟨-, hstart, -⟩ | ⟨-, harguments⟩
  · rw [hsign] at hstart
    rcases hstart with h | h | h <;> cases h
  · rw [hsign] at harguments
    cases harguments

theorem castable_of_accept {m n : Machine} {s : Symbol} (h : m.accept s = some n)
    (hs : s.kind.isScalar = true ∧ Machine.StartsValue m.context ∧ n.context ≠ .afterField ∨
      (s.kind = .plus ∨ s.kind = .minus) ∧ m.context = .arguments) :
    Machine.Castable m.context s := by
  cases s with
  | plain kind =>
      refine hs.imp ?_ ?_
      · rintro ⟨hkind, start, -⟩
        exact ⟨Kind.scalar_of_isScalar hkind, start⟩
      · rintro ⟨hkind, harguments⟩
        exact ⟨hkind.imp (congrArg Symbol.plain) (congrArg Symbol.plain), harguments⟩
  | field =>
      rcases hs with ⟨-, -, hfield⟩ | ⟨h | h, -⟩
      · exact absurd (congrArg Machine.context (Machine.eq_next_of_accept h)) hfield
      · cases h
      · cases h
  | comparison =>
      rcases hs with ⟨h, -⟩ | ⟨h | h, -⟩ <;> cases h

/-- At the place a type and a colon are read, and then the token. -/
theorem Advances.cast (h : Advances place t next) (hplace : place.machine.Coherent)
    (ht : Castable place t next) (hname : isName name = true) :
    Passes { place with rest := t.blanks ++ (name ++ ':' :: (t.raw ++ next.rest)) }
      [⟨t.blanks, name, ⟨.typeName, String.ofList name, t.token.position⟩⟩,
        ⟨[], [':'], ⟨.colon, ":", t.token.position + byteLength name⟩⟩,
        Tile.moved 0 (byteLength name + 1) { t with blanks := [] }]
      (next.moved 0 (byteLength name + 1)) := by
  obtain @⟨machine, machine', position, blanks, raw, rest, lexeme, blank, reading, accepted⟩ := h
  obtain ⟨htype, hvalue⟩ := (Machine.move_of_accept accepted).cast hplace
    (castable_of_accept accepted ht)
  have hnil : ∀ c ∈ ([] : List Char), isBlank c = true := by simp
  have htoken : position + byteLength blanks - 0 + (byteLength name + 1) =
      position + byteLength blanks + byteLength name + 1 := by
    omega
  have hnext : position + byteLength blanks + byteLength raw - 0 + (byteLength name + 1) =
      position + byteLength blanks + byteLength name + 1 + byteLength raw := by
    omega
  refine .cons (.mk blank (.typeName hname) (Machine.accept_of_move htype)) (.cons
    (.mk hnil (.punctuation rfl) (Machine.accept_of_move .colon)) (.cons ?_ .nil))
  simp only [Tile.moved, Token.moved, Scan.moved, Lexeme.token, htoken, hnext]
  exact .mk hnil reading (Machine.accept_of_move hvalue)

end Scan

open Scan

/--
**A cast may be put in front of any value.**  Let a name and a colon be put in front of a
literal, which stands behind a comparison, in a list or among arguments, or of a sign among
arguments, where the character in front is no literal character.  The query is accepted
again; its tokens are the same, with the type and the colon in front of that one, and it
and those behind it, the sentinel among them, are further on by the name and the colon.
-/
theorem tokenize_insert_cast {query : String} {s : TokenStream} (h : tokenize query = .ok s)
    {ts : List Tile} {t : Tile} {place next : Scan} (hfront : Passes (start query) ts place)
    (hplace : Advances place t next) (ht : Castable place t next) {front back : String}
    (hquery : query = front ++ back) (hposition : front.utf8ByteSize = t.token.position)
    (hliteral : ∀ c ∈ front.toList.getLast?, isLiteral c = false) {name : String}
    (hname : isName name.toList = true) :
    ∃ before after s', s.toList = before ++ t.token :: after ∧
      tokenize (front ++ name ++ ":" ++ back) = .ok s' ∧
      s'.toList = before ++ ⟨.typeName, name, t.token.position⟩ ::
        ⟨.colon, ":", t.token.position + name.utf8ByteSize⟩ ::
          (t.token :: after).map (Token.moved 0 (name.utf8ByteSize + 1)) := by
  obtain ⟨last, hafter, hblank⟩ := (hfront.append (.cons hplace .nil)).to_end h
  obtain ⟨htext, hat⟩ := hfront.place hplace
  have hcut : front.toList ++ back.toList =
      (ts.flatMap Tile.written ++ t.blanks) ++ (t.raw ++ next.rest) := by
    rw [← String.toList_append, ← hquery, htext]
  obtain ⟨hfrontText, hbackText⟩ := append_inj_of_byteLength hcut
    ((byteLength_toList front).trans (hposition.trans hat))
  have hclear := hfront.clear ht.context_ne hplace.blank (hfrontText ▸ hliteral)
  have hcoherent := hfront.coherent Machine.coherent_start
  have hnew := (hfront.cast_front hplace hname hclear).append
    ((hplace.cast hcoherent ht hname).append (hafter.moved (Nat.zero_le _)))
  have hstart : { start query with rest := ts.flatMap Tile.written ++
      (t.blanks ++ (name.toList ++ ':' :: (t.raw ++ next.rest))) } =
        start (front ++ name ++ ":" ++ back) := by
    simp [Scan.start, hfrontText, hbackText]
  have hsize : (front ++ name ++ ":" ++ back).utf8ByteSize =
      query.utf8ByteSize - 0 + (name.utf8ByteSize + 1) := by
    simp only [hquery, String.utf8ByteSize_append, show ":".utf8ByteSize = 1 from rfl]
    omega
  rw [hstart] at hnew
  obtain ⟨rfl, -⟩ := tokenize_eq_ok_iff.mp h
  refine ⟨ts.map Tile.token, next.tiles.map Tile.token ++ [Token.sentinel query.utf8ByteSize], _,
    ?_, tokenize_of_passes hnew hblank, ?_⟩
  · rw [TokenStream.toList_close, hfront.tiles, tiles_of_advances hplace]
    simp
  · rw [TokenStream.toList_close, hsize, byteLength_toList, String.ofList_toList]
    simp [Token.moved, Token.sentinel, Tile.moved]

/-- The sign in `sort(-abc)` may be cast, with `null` for the name of a type. -/
theorem tokenize_insert_cast_in_front_of_sign :
    tokenize "sort(-abc)" = .ok (.close [⟨.operator, "sort", 0⟩, ⟨.openParenthesis, "(", 4⟩,
        ⟨.minus, "-", 5⟩, ⟨.string, "abc", 6⟩, ⟨.closeParenthesis, ")", 9⟩] 10) ∧
      ∃ before after s',
        (TokenStream.close [⟨.operator, "sort", 0⟩, ⟨.openParenthesis, "(", 4⟩,
          ⟨.minus, "-", 5⟩, ⟨.string, "abc", 6⟩, ⟨.closeParenthesis, ")", 9⟩] 10).toList =
            before ++ ⟨.minus, "-", 5⟩ :: after ∧
        tokenize ("sort(" ++ "null" ++ ":" ++ "-abc)") = .ok s' ∧
        s'.toList = before ++ ⟨.typeName, "null", 5⟩ :: ⟨.colon, ":", 5 + "null".utf8ByteSize⟩ ::
          (⟨.minus, "-", 5⟩ :: after).map (Token.moved 0 ("null".utf8ByteSize + 1)) := by
  have h : tokenize "sort(-abc)" = .ok (.close [⟨.operator, "sort", 0⟩,
      ⟨.openParenthesis, "(", 4⟩, ⟨.minus, "-", 5⟩, ⟨.string, "abc", 6⟩,
      ⟨.closeParenthesis, ")", 9⟩] 10) := by
    decide +kernel
  have hfront : Passes (start "sort(-abc)")
      [⟨[], ['s', 'o', 'r', 't'], ⟨.operator, "sort", 0⟩⟩,
        ⟨[], ['('], ⟨.openParenthesis, "(", 4⟩⟩]
      ⟨⟨.arguments, [.arguments]⟩, 5, ['-', 'a', 'b', 'c', ')']⟩ := by
    decide +kernel
  have hplace : Advances ⟨⟨.arguments, [.arguments]⟩, 5, ['-', 'a', 'b', 'c', ')']⟩
      ⟨[], ['-'], ⟨.minus, "-", 5⟩⟩
      ⟨⟨.afterSign, [.arguments]⟩, 6, ['a', 'b', 'c', ')']⟩ := by
    decide +kernel
  have hquery : "sort(-abc)" = "sort(" ++ "-abc)" := by decide +kernel
  have hliteral : ∀ c ∈ "sort(".toList.getLast?, isLiteral c = false := by
    have hlast : "sort(".toList.getLast? = some '(' := by decide +kernel
    intro c hc
    obtain rfl := Option.some.inj (hlast.symm.trans hc)
    rfl
  exact ⟨h, tokenize_insert_cast h hfront hplace (.inr ⟨.inr rfl, rfl⟩) hquery
    (by decide +kernel) hliteral (by decide +kernel)⟩

end ResourceQuery

/-
A scan stays inside its query.

A scan counts bytes, and what it reads is measured in characters.  `Boundary query p rest`
is what ties a position to the text: `p` lies between two characters of the query, and
`rest` is what stands behind it.  A scan starts at a boundary, and every blank, every lexeme
and everything else that is measured leads from a boundary to a boundary, because all of it
is ASCII (`Measured.asciiUpTo`) and so as many bytes long as characters.

A lexeme is never empty, so a position is also a bound on the number of tokens in front of
it.  Together this is `tokenize_in_bounds`: no position and no length that a scan comes upon
lies outside the query or inside a character, and every scan comes to its end.
-/
import ResourceQuery.Proofs.Lexeme.Ascii
import ResourceQuery.Proofs.Scan.Tiling

namespace ResourceQuery

/-- The byte `p` lies between two characters of the query, and `rest` stands behind it. -/
structure Boundary (query : String) (p : Nat) (rest : List Char) : Prop where
  le : p ≤ query.utf8ByteSize
  valid : String.Pos.Raw.IsValid query ⟨p⟩
  text : ∃ front, query.toList = front ++ rest ∧ byteLength front = p

namespace Boundary

variable {query : String} {p n : Nat} {u v front rest : List Char}

theorem of_append (hquery : query.toList = front ++ rest) :
    Boundary query (byteLength front) rest := by
  have hsize := byteLength_toList query
  rw [hquery, byteLength_append] at hsize
  refine ⟨by omega, ?_, front, hquery, rfl⟩
  refine String.Pos.Raw.isValid_iff_exists_append.mpr
    ⟨String.ofList front, String.ofList rest, ?_, ?_⟩
  · rw [← String.ofList_append, ← hquery, String.ofList_toList]
  · have hfront := byteLength_toList (String.ofList front)
    rw [String.toList_ofList] at hfront
    rw [String.rawEndPos, hfront]

/-- Behind a text that stands behind a boundary is a boundary. -/
theorem behind (h : Boundary query p (u ++ v)) : Boundary query (p + byteLength u) v := by
  obtain ⟨front, hquery, rfl⟩ := h.text
  rw [← List.append_assoc] at hquery
  rw [← byteLength_append]
  exact of_append hquery

theorem behind_ascii (h : Boundary query p rest) (hascii : AsciiUpTo rest n) :
    Boundary query (p + n) (rest.drop n) := by
  rw [← List.take_append_drop n rest] at h
  have hbehind := h.behind
  rwa [hascii.byteLength_take] at hbehind

end Boundary

namespace Scan

variable {query : String} {s next last : Scan} {t : Tile} {ts : List Tile}

/-! ### Every step leads from a boundary to a boundary -/

theorem boundary_start (query : String) :
    Boundary query (Scan.start query).position (Scan.start query).rest := by
  have hquery : query.toList = [] ++ query.toList := rfl
  exact .of_append hquery

theorem Advances.boundary (h : Boundary query s.position s.rest) (hstep : Advances s t next) :
    Boundary query next.position next.rest := by
  obtain ⟨⟩ := hstep
  exact h.behind.behind

theorem Passes.boundary (h : Boundary query s.position s.rest) (hpasses : Passes s ts last) :
    Boundary query last.position last.rest := by
  induction hpasses with
  | nil => exact h
  | cons step _ ih => exact ih (step.boundary h)

theorem boundary_skipBlanks (h : Boundary query s.position s.rest) :
    Boundary query s.skipBlanks.position s.skipBlanks.rest := by
  have hrest : s.rest.takeWhile isBlank ++ s.rest.dropWhile isBlank = s.rest :=
    List.takeWhile_append_dropWhile
  rw [← hrest] at h
  exact h.behind

/-! ### Every step takes a byte -/

theorem Passes.length_le_position (h : Passes s ts last) :
    s.position + ts.length ≤ last.position := by
  induction h with
  | nil => exact Nat.le_refl _
  | cons step _ ih =>
      have hlt := step.position_lt
      have hle := step.position_le
      rw [← step.stop] at hlt
      rw [List.length_cons]
      omega

end Scan

open Scan

variable {query : String}

/-- Nothing that the scan of a query comes upon lies outside the query. -/
structure InBounds (query : String) : Prop where
  /-- In front of each step, and behind each blank that the step skips, the scan stands at a
  boundary. -/
  place : ∀ {ts : List Tile} {s : Scan}, Passes (Scan.start query) ts s →
    ∀ {blanks rest : List Char}, s.rest = blanks ++ rest → (∀ c ∈ blanks, isBlank c = true) →
      Boundary query (s.position + blanks.length) rest
  /-- What is measured behind a boundary ends at one: as many bytes as characters. -/
  measured : ∀ {p n : Nat} {rest : List Char}, Boundary query p rest → Measured rest n →
    Boundary query (p + n) (rest.drop n)
  /-- A lexeme takes at least one byte and at most all that are left, and leaves the scan at
  a boundary, whether or not the machine accepts it. -/
  advances : ∀ {ts : List Tile} {s : Scan} {c : Char} {cs : List Char} {l : Lexeme}
    (machine : Machine), Passes (Scan.start query) ts s → s.skipBlanks.rest = c :: cs →
    Lexeme.read c cs = .ok l →
      (s.skipBlanks.behind l machine).position = s.skipBlanks.position + l.length ∧
      1 ≤ l.length ∧ l.length ≤ query.utf8ByteSize - s.skipBlanks.position ∧
      Boundary query (s.skipBlanks.position + l.length) (s.skipBlanks.behind l machine).rest
  /-- No more steps are taken than there are bytes behind the scan. -/
  steps : ∀ {ts : List Tile} {s : Scan}, Passes (Scan.start query) ts s → ts.length ≤ s.position
  /-- The scan comes to a place where it takes no further step, with the tokens of the steps
  it has taken. -/
  ends : ∃ ts last, Passes (Scan.start query) ts last ∧
    (∀ token next, last.step ≠ .accepted token next) ∧
      (Scan.start query).run = ⟨ts.map Tile.token, last.run.ending⟩
  /-- A stream has a token for each byte at most, and the sentinel. -/
  size : ∀ {stream : TokenStream}, tokenize query = .ok stream →
    stream.size ≤ query.utf8ByteSize + 1

theorem size_le_of_tokenize {stream : TokenStream} (h : tokenize query = .ok stream) :
    stream.size ≤ query.utf8ByteSize + 1 := by
  obtain ⟨rfl, last, hpasses, -⟩ := tokenize_eq_ok_iff.mp h
  have hsteps := hpasses.length_le_position
  have hle := (hpasses.boundary (boundary_start query)).le
  simp only [TokenStream.size, TokenStream.close, List.size_toArray, List.length_append,
    List.length_map, List.length_singleton]
  omega

/--
**A scan stays inside its query.**  Wherever it stands, and wherever a recogniser that it
tries from there reaches, lies in the query and between two characters; each lexeme takes
at least one byte, so there are no more tokens than bytes and the scan comes to its end.
-/
theorem tokenize_in_bounds (query : String) : InBounds query where
  place := by
    intro ts s hpasses blanks rest hrest hblanks
    have hboundary := hpasses.boundary (boundary_start query)
    rw [hrest] at hboundary
    rw [← (ascii_of_isBlank hblanks).byteLength]
    exact hboundary.behind
  measured := fun hboundary hmeasured => hboundary.behind_ascii hmeasured.asciiUpTo
  advances := by
    intro ts s c cs l machine hpasses hrest hread
    have hboundary := boundary_skipBlanks (hpasses.boundary (boundary_start query))
    have hupto : AsciiUpTo s.skipBlanks.rest l.length := (Measured.lexeme hrest hread).asciiUpTo
    have hnext := hboundary.behind_ascii hupto
    have hle := hnext.le
    refine ⟨?_, Lexeme.read_length_pos hread, by omega, hnext⟩
    rw [Scan.behind, hupto.byteLength_take]
  steps := by
    intro ts s hpasses
    have hle := hpasses.length_le_position
    rwa [Scan.start, Nat.zero_add] at hle
  ends := by
    obtain ⟨last, hpasses, hlast⟩ := exists_passes (Scan.start query)
    refine ⟨_, last, hpasses, hlast, ?_⟩
    rw [hpasses.run, tokens_run_of_not_accepted hlast, List.append_nil]
  size := size_le_of_tokenize

/-- The character behind the `%` is looked at, and not cut. -/
example : tokenize "a=1%é" = .error ⟨.malformedEscape "1%", 2⟩ := by
  decide +kernel

end ResourceQuery

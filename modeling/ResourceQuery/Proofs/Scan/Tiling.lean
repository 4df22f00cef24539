/-
The tokens of a query tile it.

A scan that passes over tiles has them one behind another in the text, with nothing
but blanks between them, and each step reads its tile from a text that denotes the
token.  Both are invariants of a single step; over a whole query they say that no
character is lost, none is read twice, and no token claims more than is written.
-/
import ResourceQuery.Proofs.Lexeme.Form
import ResourceQuery.Proofs.Scan.Passage

namespace ResourceQuery

/-- The bytes of a text's UTF-8 form. -/
def bytesOf (cs : List Char) : List UInt8 :=
  cs.flatMap String.utf8EncodeChar

/-- Bytes that may stand between tokens: ASCII space, tab, line feed, form feed and
carriage return. -/
def isBlankByte (b : UInt8) : Bool :=
  b = 0x20 || b = 0x09 || b = 0x0a || b = 0x0c || b = 0x0d

namespace Tile

/-- A byte of the query belongs to the token. -/
def Covers (t : Tile) (i : Nat) : Prop :=
  t.token.position ≤ i ∧ i < t.stop

/-- The text of the token stands in the query where the token says it does. -/
def LiesIn (t : Tile) (query : String) : Prop :=
  ∃ before after, query.toList = before ++ (t.raw ++ after) ∧
    byteLength before = t.token.position

end Tile

variable {cs ds : List Char} {c : Char}

@[simp] theorem bytesOf_append (cs ds : List Char) :
    bytesOf (cs ++ ds) = bytesOf cs ++ bytesOf ds :=
  List.flatMap_append

theorem length_bytesOf (cs : List Char) : (bytesOf cs).length = byteLength cs := by
  induction cs with
  | nil => rfl
  | cons c cs ih =>
      rw [bytesOf, List.flatMap_cons, List.length_append, String.length_utf8EncodeChar,
        byteLength_cons]
      exact congrArg (c.utf8Size + ·) ih

theorem toByteArray_eq (query : String) :
    query.toByteArray = (bytesOf query.toList).toByteArray := by
  rw [← String.utf8Encode_toList]
  rfl

theorem getElem?_bytesOf {query : String} {i : Nat} (hi : i < query.toByteArray.size) :
    (bytesOf query.toList)[i]? = some query.toByteArray[i] := by
  have hbytes := toByteArray_eq query
  simp only [hbytes, List.getElem_toByteArray]
  exact List.getElem?_eq_getElem (by simpa [hbytes] using hi)

theorem isBlankByte_of_mem (h : ∀ c ∈ cs, isBlank c = true) :
    ∀ b ∈ bytesOf cs, isBlankByte b = true := by
  intro b hb
  obtain ⟨c, hc, hb⟩ := List.mem_flatMap.mp hb
  have hblank := h c hc
  simp only [isBlank, Bool.or_eq_true, decide_eq_true_eq] at hblank
  rcases hblank with (((rfl | rfl) | rfl) | rfl) | rfl <;>
    · obtain rfl := List.mem_singleton.mp hb
      rfl

namespace Scan

variable {s next last : Scan} {t : Tile} {ts : List Tile}

/-! ### One step -/

theorem Advances.stop (h : Advances s t next) : next.position = t.stop := by
  obtain ⟨⟩ := h
  rfl

theorem Advances.position_le (h : Advances s t next) : s.position ≤ t.token.position := by
  obtain ⟨⟩ := h
  exact Nat.le_add_right _ _

theorem Advances.position_lt (h : Advances s t next) : t.token.position < t.stop := by
  obtain ⟨-, reading, -⟩ := h
  obtain ⟨c, cs, rfl, -⟩ := reading.exists_cons
  have := c.utf8Size_pos
  simp only [Tile.stop, byteLength_cons]
  omega

theorem Advances.denotes (h : Advances s t next) :
    Denotes t.raw t.token.kind t.token.value := by
  obtain ⟨-, reading, -⟩ := h
  exact reading.denotes

/-! ### Any number of steps -/

theorem Passes.position_le (h : Passes s ts last) : ∀ t ∈ ts, s.position ≤ t.token.position := by
  induction h with
  | nil => simp
  | cons step _ ih =>
      intro u hu
      have hle := step.position_le
      have hlt := step.position_lt
      have hstop := step.stop
      rcases List.mem_cons.mp hu with rfl | hu
      · exact hle
      · have := ih u hu
        omega

theorem Passes.ordered (h : Passes s ts last) :
    ts.Pairwise (fun t u => t.stop ≤ u.token.position) := by
  induction h with
  | nil => exact .nil
  | cons step steps ih =>
      refine .cons ?_ ih
      intro u hu
      rw [← step.stop]
      exact steps.position_le u hu

theorem Passes.lies (h : Passes s ts last) : ∀ t ∈ ts, ∃ before after,
    s.rest = before ++ (t.raw ++ after) ∧ s.position + byteLength before = t.token.position := by
  induction h with
  | nil => simp
  | @cons s next last t ts step steps ih =>
      intro u hu
      obtain @⟨machine, machine', position, blanks, raw, rest, lexeme, -, -, -⟩ := step
      rcases List.mem_cons.mp hu with rfl | hu
      · exact ⟨blanks, rest, rfl, rfl⟩
      · obtain ⟨before, after, hrest, hposition⟩ := ih u hu
        refine ⟨blanks ++ (raw ++ before), after, ?_, ?_⟩
        · rw [show rest = before ++ (u.raw ++ after) from hrest]
          simp only [List.append_assoc]
        · rw [← hposition]
          simp only [byteLength_append]
          omega

/-- A byte that no tile covers is one of a blank: it lies in front of the first tile, or
behind it, where the rest of the tiles are passed over. -/
theorem Passes.blank (h : Passes s ts last) (hlast : ∀ c ∈ last.rest, isBlank c = true) :
    ∀ i b, (bytesOf s.rest)[i]? = some b → (∀ t ∈ ts, ¬ t.Covers (s.position + i)) →
      isBlankByte b = true := by
  induction h with
  | nil =>
      intro i b hb _
      exact isBlankByte_of_mem hlast b (List.mem_of_getElem? hb)
  | @cons s next last t ts step _ ih =>
      intro i b hb huncovered
      have hnext := ih hlast
      obtain @⟨machine, machine', position, blanks, raw, rest, lexeme, blank, -, -⟩ := step
      have hblanks := length_bytesOf blanks
      have hraw := length_bytesOf raw
      by_cases hfront : i < byteLength blanks
      · rw [bytesOf_append, List.getElem?_append_left (by omega)] at hb
        exact isBlankByte_of_mem blank b (List.mem_of_getElem? hb)
      · have houtside := huncovered _ List.mem_cons_self
        simp only [Tile.Covers, Tile.stop, Lexeme.token] at houtside
        have hbehind : byteLength blanks + byteLength raw ≤ i := by omega
        rw [bytesOf_append, List.getElem?_append_right (by omega), bytesOf_append,
          List.getElem?_append_right (by omega), hblanks, hraw] at hb
        refine hnext _ b hb fun u hu => ?_
        have := huncovered u (List.mem_cons_of_mem _ hu)
        have hindex : position + byteLength blanks + byteLength raw +
            (i - byteLength blanks - byteLength raw) = position + i := by omega
        simp only [hindex]
        exact this

theorem Passes.forall_mem {p : Tile → Prop} (hp : ∀ {s t next}, Advances s t next → p t)
    (h : Passes s ts last) : ∀ t ∈ ts, p t := by
  induction h with
  | nil => simp
  | cons step _ ih =>
      intro u hu
      rcases List.mem_cons.mp hu with rfl | hu
      · exact hp step
      · exact ih u hu

end Scan

open Scan

theorem Denotes.kind_ne_ending {raw : List Char} {kind : Kind} {value : String}
    (h : Denotes raw kind value) : kind ≠ .ending := by
  cases h with
  | verbatim form => cases form <;> decide
  | text => decide
  | comparison => decide

/-- Tiles that leave nothing of a query but blanks, and each of them a token that its
text denotes. -/
structure Tiling (query : String) (tiles : List Tile) : Prop where
  lies : ∀ t ∈ tiles, t.LiesIn query
  nonempty : ∀ t ∈ tiles, t.token.position < t.stop
  ordered : tiles.Pairwise (fun t u => t.stop ≤ u.token.position)
  blank : ∀ i (hi : i < query.toByteArray.size), (∀ t ∈ tiles, ¬ t.Covers i) →
    isBlankByte query.toByteArray[i] = true
  not_ending : ∀ t ∈ tiles, t.token.kind ≠ .ending
  denotes : ∀ t ∈ tiles, Denotes t.raw t.token.kind t.token.value
  no_percent : ∀ t ∈ tiles, t.token.kind ≠ .string → '%' ∉ t.raw

theorem tiling_of_passes {query : String} {ts : List Tile} {last : Scan}
    (h : Passes (Scan.start query) ts last) (hblank : ∀ c ∈ last.rest, isBlank c = true) :
    Tiling query ts := by
  have hdenotes := h.forall_mem fun step => step.denotes
  refine ⟨?_, h.forall_mem fun step => step.position_lt, h.ordered, ?_, ?_, hdenotes, ?_⟩
  · intro t ht
    obtain ⟨before, after, hrest, hposition⟩ := h.lies t ht
    refine ⟨before, after, hrest, ?_⟩
    rw [← hposition, start, Nat.zero_add]
  · intro i hi huncovered
    refine h.blank hblank i _ (getElem?_bytesOf hi) fun t ht => ?_
    rw [start, Nat.zero_add]
    exact huncovered t ht
  · exact fun t ht => (hdenotes t ht).kind_ne_ending
  · exact fun t ht => (hdenotes t ht).no_percent

end ResourceQuery

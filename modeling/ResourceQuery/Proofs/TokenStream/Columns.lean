/-
The columns of a listing.

A row has two columns to look down: where the name of the kind starts, and where the value's quote
opens.  `nameColumn` and `quoteColumn` find them in a line by what is written there, so whether a
text is aligned is a question about the text alone.  In the row of a token both are told by its
position (`nameColumn_row`, `quoteColumn_row`).  The names have room for the longest of them, so
the quote is always as far behind the name; but a position has room for four digits, whatever the
others are, and a longer one moves the rest of its row to the right.  So a listing is aligned just
when its positions take as many columns as one another (`aligned_toListing_iff`).

The sentinel of a query has the length of the query for its position, which takes a fifth digit
where the query has ten thousand bytes.
-/
import ResourceQuery.Proofs.Command.LineBreaks
import ResourceQuery.Proofs.Lexeme.Ascii
import ResourceQuery.Proofs.TokenStream.Interchange
import ResourceQuery.Proofs.TokenStream.Listing

namespace ResourceQuery

namespace Listing

open Text.Quoted (encode)

variable {width n : Nat} {t : Token} {ts : List Token} {rows : List (List Char)}

/-! ### Lines and columns of a text -/

/-- The lines of a text that ends in a line break, without their breaks. -/
def textLines (text : String) : List (List Char) :=
  (text.toList.splitOn '\n').dropLast

/-- Whether a character may stand in front of the name of a kind. -/
def inMargin (c : Char) : Bool :=
  c = ' ' || c.isDigit

/-- Where the name of the kind starts in a line: behind the blanks and digits at its front. -/
def nameColumn (line : List Char) : Nat :=
  (line.takeWhile inMargin).length

/-- Where the quote opens in a line. -/
def quoteColumn (line : List Char) : Nat :=
  (line.takeWhile (· ≠ '"')).length

/-- The names start at the same column on every line of a text, and the quotes open at the same
column on every line. -/
def Aligned (text : String) : Prop :=
  ∀ u ∈ textLines text, ∀ v ∈ textLines text,
    nameColumn u = nameColumn v ∧ quoteColumn u = quoteColumn v

theorem splitOn_rows (h : ∀ r ∈ rows, '\n' ∉ r) :
    (rows.map (· ++ ['\n'])).flatten.splitOn '\n' = rows ++ [[]] := by
  induction rows with
  | nil => rfl
  | cons r rows ih =>
      obtain ⟨hr, hrows⟩ := List.forall_mem_cons.mp h
      have hsingle : r.splitOn '\n' = [r] :=
        List.splitOnP_eq_singleton fun c hc => beq_false_of_ne fun hbreak => hr (hbreak ▸ hc)
      have hfront : (r ++ ['\n'] ++ (rows.map (· ++ ['\n'])).flatten).splitOn '\n' =
          r.splitOn '\n' ++ (rows.map (· ++ ['\n'])).flatten.splitOn '\n' := by
        rw [List.append_assoc]
        exact List.splitOnP_append_cons _ _ rfl
      rw [List.map_cons, List.flatten_cons, hfront, hsingle, ih hrows]
      rfl

/-- The lines of a listing are the rows of its tokens. -/
theorem textLines_toListing (s : TokenStream) :
    textLines s.toListing = s.toList.map (row (kindWidth s.toList)) := by
  have hrows : ∀ r ∈ s.toList.map (row (kindWidth s.toList)), '\n' ∉ r := by
    intro r hr
    obtain ⟨t, -, rfl⟩ := List.mem_map.mp hr
    exact (row_row _ t).unbroken
  have hflatten : (lines s.toList).flatten =
      ((s.toList.map (row (kindWidth s.toList))).map (· ++ ['\n'])).flatten := by
    rw [flatten_lines, List.map_map]
    rfl
  rw [textLines, TokenStream.toListing, String.toList_ofList, hflatten, splitOn_rows hrows,
    List.dropLast_concat]

/-! ### The columns of a row -/

/-- How many columns a position takes. -/
def positionColumns (position : Nat) : Nat :=
  max positionWidth (Nat.toDigits 10 position).length

/-- What stands in front of the name of the kind. -/
def margin (t : Token) : List Char :=
  List.replicate (positionWidth - (Nat.toDigits 10 t.position).length) ' ' ++
    (Nat.toDigits 10 t.position ++ List.replicate 2 ' ')

/-- What stands between the name of the kind and the quote. -/
def gap (width : Nat) (t : Token) : List Char :=
  List.replicate (width - t.kind.name.toList.length + 2) ' '

theorem row_eq_margin (width : Nat) (t : Token) :
    row width t =
      margin t ++ (t.kind.name.toList ++
        (gap width t ++ '"' :: (encode t.value.toList ++ ['"']))) := by
  rw [row_eq, margin, gap]
  simp only [List.append_assoc]

theorem length_margin (t : Token) : (margin t).length = positionColumns t.position + 2 := by
  simp only [margin, positionColumns, List.length_append, List.length_replicate]
  omega

theorem inMargin_of_mem_margin (t : Token) : ∀ c ∈ margin t, inMargin c = true := by
  have hblank : ∀ n, ∀ c ∈ List.replicate n ' ', inMargin c = true := by
    intro n c hc
    rw [List.eq_of_mem_replicate hc]
    rfl
  intro c hc
  rw [margin, List.mem_append, List.mem_append] at hc
  rcases hc with hc | hc | hc
  · exact hblank _ c hc
  · rw [inMargin, Nat.isDigit_of_mem_toDigits (by decide) (by decide) hc, Bool.or_true]
  · exact hblank _ c hc

theorem stops_name (k : Kind) (x : List Char) : Stops inMargin (k.name.toList ++ x) := by
  obtain ⟨u, hu⟩ := exists_name k
  rw [hu]
  exact Stops.cons_iff.mpr rfl

/-- The name of the kind starts behind the position, and is what is written there. -/
theorem nameColumn_row (width : Nat) (t : Token) :
    nameColumn (row width t) = positionColumns t.position + 2 ∧
      t.kind.name.toList <+: (row width t).drop (nameColumn (row width t)) := by
  have hcolumn : nameColumn (row width t) = (margin t).length := by
    rw [nameColumn, row_eq_margin,
      takeWhile_append_stops (inMargin_of_mem_margin t) (stops_name _ _)]
  refine ⟨hcolumn.trans (length_margin t), ?_⟩
  rw [hcolumn, row_eq_margin, List.drop_left]
  exact List.prefix_append _ _

/-- The quote opens behind the position and as many columns as names have. -/
theorem quoteColumn_row (h : t.kind.name.length ≤ width) :
    quoteColumn (row width t) = positionColumns t.position + 2 + width + 2 := by
  have hquote : ∀ c ∈ margin t ++ (t.kind.name.toList ++ gap width t),
      decide (c ≠ '"') = true := by
    intro c hc
    refine decide_eq_true ?_
    rintro rfl
    rw [List.mem_append, List.mem_append] at hc
    rcases hc with hc | hc | hc
    · cases inMargin_of_mem_margin t _ hc
    · exact (word_name _).ne_quote hc
    · exact absurd (List.eq_of_mem_replicate hc) (by decide)
  have hstops : Stops (· ≠ '"') ('"' :: (encode t.value.toList ++ ['"'])) :=
    Stops.cons_iff.mpr rfl
  have hrow : row width t = margin t ++ (t.kind.name.toList ++ gap width t) ++
      '"' :: (encode t.value.toList ++ ['"']) := by
    rw [row_eq_margin]
    simp only [List.append_assoc]
  rw [quoteColumn, hrow, takeWhile_append_stops hquote hstops, List.length_append,
    length_margin, gap, List.length_append, List.length_replicate, String.length_toList]
  omega

/-- The names have room for the longest of them. -/
theorem length_name_le_kindWidth (h : t ∈ ts) : t.kind.name.length ≤ kindWidth ts := by
  rw [kindWidth, List.foldl_max, Nat.zero_max]
  exact List.le_max?_getD_of_mem (List.mem_map_of_mem h)

theorem positionColumns_eq (h : n < 10000) : positionColumns n = positionWidth :=
  Nat.max_eq_left ((Nat.length_toDigits_le_iff (by decide) (by decide)).mpr h)

theorem lt_positionColumns (h : 10000 ≤ n) : positionWidth < positionColumns n := by
  have hnot : ¬ (Nat.toDigits 10 n).length ≤ positionWidth := fun hle =>
    absurd ((Nat.length_toDigits_le_iff (by decide) (by decide)).mp hle) (Nat.not_lt.mpr h)
  exact Nat.lt_of_lt_of_le (Nat.lt_of_not_le hnot) (Nat.le_max_right _ _)

/-! ### The columns of a listing -/

/-- A listing is aligned just when its positions take as many columns as one another. -/
theorem aligned_toListing_iff (s : TokenStream) :
    Aligned s.toListing ↔
      ∀ t ∈ s.toList, ∀ u ∈ s.toList, positionColumns t.position = positionColumns u.position := by
  simp only [Aligned, textLines_toListing, List.forall_mem_map]
  constructor
  · intro h t ht u hu
    have hname := (h t ht u hu).1
    rw [(nameColumn_row _ t).1, (nameColumn_row _ u).1] at hname
    exact Nat.add_right_cancel hname
  · intro h t ht u hu
    rw [(nameColumn_row _ t).1, (nameColumn_row _ u).1,
      quoteColumn_row (length_name_le_kindWidth ht), quoteColumn_row (length_name_le_kindWidth hu),
      h t ht u hu]
    exact ⟨rfl, rfl⟩

end Listing

open Listing

variable {query : String} {s : TokenStream}

/-- Where the columns of the listing of a query are. -/
structure ListingColumns (query : String) (s : TokenStream) : Prop where
  /-- There is a line for each token, whose name starts behind the columns of the position, and
  whose quote opens behind the columns of the name. -/
  starts : ∃ row : Token → List Char, textLines s.toListing = s.toList.map row ∧
    ∀ t ∈ s.toList,
      t.kind.name.toList <+: (row t).drop (nameColumn (row t)) ∧
      nameColumn (row t) = positionColumns t.position + 2 ∧
      quoteColumn (row t) = nameColumn (row t) + kindWidth s.toList + 2
  /-- The columns are aligned just when every position takes as many of them as the length of
  the query does. -/
  aligned_iff : Aligned s.toListing ↔
    ∀ t ∈ s.toList, positionColumns t.position = positionColumns query.utf8ByteSize
  /-- They are aligned where the query is shorter than ten thousand bytes. -/
  short : query.utf8ByteSize < 10000 → Aligned s.toListing
  /-- They are not where it is not shorter, and has a token among these bytes. -/
  long : 10000 ≤ query.utf8ByteSize → (∃ t ∈ s.toList, t.position < 10000) → ¬ Aligned s.toListing

theorem sentinel_mem_of_tokenize (h : tokenize query = .ok s) :
    Token.sentinel query.utf8ByteSize ∈ s.toList := by
  obtain ⟨rfl, -⟩ := tokenize_eq_ok_iff.mp h
  rw [TokenStream.toList_close]
  exact List.mem_concat_self

theorem aligned_iff_of_tokenize (h : tokenize query = .ok s) :
    Aligned s.toListing ↔
      ∀ t ∈ s.toList, positionColumns t.position = positionColumns query.utf8ByteSize := by
  rw [aligned_toListing_iff]
  constructor
  · exact fun hall t ht => hall t ht _ (sentinel_mem_of_tokenize h)
  · exact fun hall t ht u hu => (hall t ht).trans (hall u hu).symm

theorem not_aligned_of_tokenize (h : tokenize query = .ok s) (hsize : 10000 ≤ query.utf8ByteSize)
    (hfirst : ∃ t ∈ s.toList, t.position < 10000) : ¬ Aligned s.toListing := by
  obtain ⟨t, ht, hposition⟩ := hfirst
  intro haligned
  have hcolumns := (aligned_iff_of_tokenize h).mp haligned t ht
  rw [positionColumns_eq hposition] at hcolumns
  exact Nat.ne_of_lt (lt_positionColumns hsize) hcolumns

/--
**The columns of a listing are aligned as long as the positions of its tokens take as many columns
as the length of the query does.**  So they are for a query that is shorter than ten thousand
bytes.
-/
theorem listing_columns (h : tokenize query = .ok s) : ListingColumns query s where
  starts := by
    refine ⟨row (kindWidth s.toList), textLines_toListing s, fun t ht => ?_⟩
    obtain ⟨hcolumn, hname⟩ := nameColumn_row (kindWidth s.toList) t
    refine ⟨hname, hcolumn, ?_⟩
    rw [hcolumn, quoteColumn_row (length_name_le_kindWidth ht)]
  aligned_iff := aligned_iff_of_tokenize h
  short := by
    intro hsize
    refine (aligned_iff_of_tokenize h).mpr fun t ht => ?_
    have hposition := position_le_of_tokenize h t ht
    rw [positionColumns_eq hsize, positionColumns_eq (Nat.lt_of_le_of_lt hposition hsize)]
  long := not_aligned_of_tokenize h

/-- Names of different lengths. -/
theorem listing_columns_of_sort :
    tokenize "sort(-a)" = .ok (.close [⟨.operator, "sort", 0⟩, ⟨.openParenthesis, "(", 4⟩,
      ⟨.minus, "-", 5⟩, ⟨.string, "a", 6⟩, ⟨.closeParenthesis, ")", 7⟩] 8) ∧
      ListingColumns "sort(-a)" (.close [⟨.operator, "sort", 0⟩, ⟨.openParenthesis, "(", 4⟩,
        ⟨.minus, "-", 5⟩, ⟨.string, "a", 6⟩, ⟨.closeParenthesis, ")", 7⟩] 8) :=
  ⟨by decide +kernel, listing_columns (by decide +kernel)⟩

/-- A comparison and blanks behind it, ten thousand bytes in all. -/
def spacedComparison : String :=
  "a=1" ++ String.ofList (List.replicate 9997 ' ')

theorem tokenize_spacedComparison :
    tokenize spacedComparison = .ok (.close [⟨.string, "a", 0⟩, ⟨.operator, "eq", 1⟩,
      ⟨.integer, "1", 2⟩] 10000) := by
  have hblank : ∀ c ∈ (String.ofList (List.replicate 9997 ' ')).toList, isBlank c = true := by
    intro c hc
    rw [String.toList_ofList] at hc
    rw [List.eq_of_mem_replicate hc]
    rfl
  have hcomparison : tokenize "a=1" = .ok (.close [⟨.string, "a", 0⟩, ⟨.operator, "eq", 1⟩,
      ⟨.integer, "1", 2⟩] 3) := by decide +kernel
  obtain ⟨tokens, hclose, hspaced⟩ := (tokenize_append_blanks "a=1" hblank).2 _ hcomparison
  have hlist := congrArg TokenStream.toList hclose
  rw [TokenStream.toList_close, TokenStream.toList_close] at hlist
  obtain rfl := (List.append_inj' hlist rfl).1
  have hlength : (String.ofList (List.replicate 9997 ' ')).utf8ByteSize = 9997 := by
    rw [← byteLength_toList, (ascii_of_isBlank hblank).byteLength, String.toList_ofList,
      List.length_replicate]
  have hsize : spacedComparison.utf8ByteSize = 10000 := by
    rw [spacedComparison, String.utf8ByteSize_append, hlength]
    rfl
  rw [← hsize]
  exact hspaced

/-- The sentinel of a query of ten thousand bytes is listed one column to the right. -/
theorem not_aligned_spacedComparison :
    tokenize spacedComparison = .ok (.close [⟨.string, "a", 0⟩, ⟨.operator, "eq", 1⟩,
      ⟨.integer, "1", 2⟩] 10000) ∧
      ¬ Aligned (TokenStream.close [⟨.string, "a", 0⟩, ⟨.operator, "eq", 1⟩,
        ⟨.integer, "1", 2⟩] 10000).toListing := by
  refine ⟨tokenize_spacedComparison, fun haligned => ?_⟩
  have hcolumns := (aligned_toListing_iff _).mp haligned ⟨.string, "a", 0⟩
    List.mem_cons_self (Token.sentinel 10000) (by decide)
  exact absurd hcolumns (by decide)

end ResourceQuery

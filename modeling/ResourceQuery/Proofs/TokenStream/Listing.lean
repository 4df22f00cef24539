/-
A listing determines the tokens it lists.

The line of a token is three words and the blanks between them: the position, the name of the
kind, and the value in quotes.  How many blanks there are depends on the other tokens, so `Row`
leaves it open, and rows are compared word by word, whatever stands between the words
(`word_append_inj`).  A position has no blank in it and neither has a name, and where the value
ends is for its quotes to say.  So the first row of a listing tells its token and where the next
line starts (`Row.append_inj`), and the rest is an induction on the tokens.

That rows are as many as line breaks is a matter of the words as well: no value has a break in
it, however it is written.
-/
import ResourceQuery.Listing
import ResourceQuery.Proofs.Text.Quoted

namespace ResourceQuery

open Text.Quoted (Quotes quotes_encode quote encode)

namespace Listing

variable {a b width w : Nat} {t t' : Token} {ts us : List Token} {u v x y : List Char}

/-! ### Words and the blanks between them -/

/-- One or more characters, none of them a blank, a quote or a line break. -/
structure Word (u : List Char) : Prop where
  ne_nil : u ≠ []
  ne_blank : ∀ c ∈ u, c ≠ ' '
  ne_quote : '"' ∉ u
  ne_lineFeed : '\n' ∉ u

theorem word_of_chars (hu : u ≠ [])
    (h : ∀ c ∈ u, isHexDigit c = true ∨ c.isUpper = true ∨ c = '_') : Word u := by
  refine ⟨hu, ?_, ?_, ?_⟩
  · rintro c hc rfl
    exact absurd (h _ hc) (by decide)
  · exact fun hc => absurd (h _ hc) (by decide)
  · exact fun hc => absurd (h _ hc) (by decide)

theorem word_position (n : Nat) : Word (Nat.toDigits 10 n) :=
  word_of_chars Nat.toDigits_ne_nil fun c hc =>
    .inl (isHexDigit_of_mem_toDigits (by decide) (by decide) n c hc)

theorem exists_name (k : Kind) : ∃ u, k.name.toList = 'T' :: u := by
  cases k <;> exact ⟨_, rfl⟩

theorem word_name (k : Kind) : Word k.name.toList := by
  refine word_of_chars ?_ ?_
  · obtain ⟨u, hu⟩ := exists_name k
    rw [hu]
    exact List.cons_ne_nil _ _
  · have hall : k.name.toList.all (fun c => c.isUpper || c = '_') = true := by
      cases k <;> rfl
    intro c hc
    have hchar := List.all_eq_true.mp hall c hc
    rw [Bool.or_eq_true, decide_eq_true_eq] at hchar
    exact .inr hchar

theorem eq_blank_of_mem (n : Nat) : ∀ c ∈ List.replicate n ' ', decide (c = ' ') = true :=
  fun _ hc => decide_eq_true (List.eq_of_mem_replicate hc)

theorem stops_blanks (n : Nat) (x : List Char) :
    Stops (· ≠ ' ') (List.replicate (n + 1) ' ' ++ x) :=
  Stops.cons_iff.mpr rfl

/-- Two words with blanks in front are told apart from what stands behind them. -/
theorem word_append_inj (hu : Word u) (hv : Word v) (hx : Stops (· ≠ ' ') x)
    (hy : Stops (· ≠ ' ') y)
    (h : List.replicate a ' ' ++ (u ++ x) = List.replicate b ' ' ++ (v ++ y)) :
    u = v ∧ x = y := by
  have hstops : ∀ {w z : List Char}, Word w → Stops (· = ' ') (w ++ z) := fun hw =>
    Stops.append hw.ne_nil fun c hc => decide_eq_false (hw.ne_blank c hc)
  have hchars : ∀ {w : List Char}, Word w → ∀ c ∈ w, decide (c ≠ ' ') = true :=
    fun hw c hc => decide_eq_true (hw.ne_blank c hc)
  obtain ⟨-, hwords⟩ :=
    run_append_inj (eq_blank_of_mem a) (hstops hu) (eq_blank_of_mem b) (hstops hv) h
  exact run_append_inj (hchars hu) hx (hchars hv) hy hwords

/-- Nor does a quote, which opens no word, count the blanks in front of it. -/
theorem quote_append_inj
    (h : List.replicate a ' ' ++ '"' :: x = List.replicate b ' ' ++ '"' :: y) : x = y := by
  have hquote : ∀ z, Stops (· = ' ') ('"' :: z) := fun z => Stops.cons_iff.mpr rfl
  obtain ⟨-, hbehind⟩ :=
    run_append_inj (eq_blank_of_mem a) (hquote x) (eq_blank_of_mem b) (hquote y) h
  exact (List.cons.inj hbehind).2

/-! ### One line -/

/-- How a token is written on a line: its position, the name of its kind and its value in
quotes, with blanks between them, and no line break in any of it. -/
structure Row (t : Token) (row : List Char) : Prop where
  written : ∃ a b value,
    row = List.replicate a ' ' ++ (Nat.toDigits 10 t.position ++ (List.replicate 2 ' ' ++
      (t.kind.name.toList ++ (List.replicate (b + 2) ' ' ++ '"' :: (value ++ ['"']))))) ∧
    Quotes t.value.toList value
  unbroken : '\n' ∉ row

/-- The line of a token without its line break. -/
def row (width : Nat) (t : Token) : List Char :=
  lead width t ++ quote t.value

theorem row_eq (width : Nat) (t : Token) :
    row width t =
      List.replicate (positionWidth - (Nat.toDigits 10 t.position).length) ' ' ++
        (Nat.toDigits 10 t.position ++ (List.replicate 2 ' ' ++ (t.kind.name.toList ++
          (List.replicate (width - t.kind.name.toList.length + 2) ' ' ++
            '"' :: (encode t.value.toList ++ ['"']))))) := by
  have htwo : List.replicate 2 ' ' = [' ', ' '] := rfl
  rw [← List.replicate_append_replicate, htwo]
  simp [row, lead, padLeft, padRight, quote]

theorem row_row (width : Nat) (t : Token) : Row t (row width t) := by
  have hvalue := quotes_encode t.value.toList
  refine ⟨⟨_, _, _, row_eq width t, hvalue⟩, ?_⟩
  have hblanks : ∀ n, '\n' ∉ List.replicate n ' ' :=
    fun n hmem => absurd (List.eq_of_mem_replicate hmem) (by decide)
  simp only [row_eq, List.mem_append, List.mem_cons, List.not_mem_nil, or_false, not_or]
  exact ⟨hblanks _, (word_position _).ne_lineFeed, hblanks _, (word_name _).ne_lineFeed,
    hblanks _, by decide, hvalue.not_mem_lineFeed, by decide⟩

/-- A row tells its token, and where what stands behind it starts. -/
theorem Row.append_inj (hu : Row t u) (hv : Row t' v) (h : u ++ x = v ++ y) :
    t = t' ∧ x = y := by
  obtain ⟨_, _, _, rfl, hquotes⟩ := hu.written
  obtain ⟨_, _, _, rfl, hquotes'⟩ := hv.written
  simp only [List.append_assoc, List.cons_append, List.nil_append] at h
  obtain ⟨hposition, hkind⟩ :=
    word_append_inj (word_position _) (word_position _) (stops_blanks _ _) (stops_blanks _ _) h
  obtain ⟨hname, hblanks⟩ :=
    word_append_inj (word_name _) (word_name _) (stops_blanks _ _) (stops_blanks _ _) hkind
  obtain ⟨hvalue, hbehind⟩ := hquotes.append_inj hquotes' (quote_append_inj hblanks)
  obtain ⟨kind, value, position⟩ := t
  obtain ⟨kind', value', position'⟩ := t'
  obtain rfl : position = position' := toDigits_inj (by decide) (by decide) hposition
  obtain rfl : kind = kind' := Kind.name_injective (String.toList_inj.mp hname)
  obtain rfl : value = value' := String.toList_inj.mp hvalue
  exact ⟨rfl, hbehind⟩

/-! ### All lines -/

theorem flatten_lines (ts : List Token) :
    (lines ts).flatten = (ts.map fun t => row (kindWidth ts) t ++ ['\n']).flatten :=
  rfl

/-- There is one line break for each token. -/
theorem count_lineFeed (width : Nat) (ts : List Token) :
    (ts.map fun t => row width t ++ ['\n']).flatten.count '\n' = ts.length := by
  induction ts with
  | nil => rfl
  | cons t ts ih =>
      have hrow : (row width t).count '\n' = 0 := List.count_eq_zero.mpr (row_row width t).unbroken
      rw [List.map_cons, List.flatten_cons, List.count_append, List.count_append, hrow, ih,
        List.length_cons]
      exact Nat.add_comm _ _

/-- Lines tell their tokens, whatever width the names are padded to. -/
theorem rows_inj
    (h : (ts.map fun t => row width t ++ ['\n']).flatten =
      (us.map fun t => row w t ++ ['\n']).flatten) : ts = us := by
  induction ts generalizing us with
  | nil =>
      cases us with
      | nil => rfl
      | cons => simp at h
  | cons t ts ih =>
      cases us with
      | nil => simp at h
      | cons t' us =>
          simp only [List.map_cons, List.flatten_cons, List.append_assoc] at h
          obtain ⟨rfl, hrest⟩ := (row_row width t).append_inj (row_row w t') h
          rw [ih (List.cons.inj hrest).2]

end Listing

namespace TokenStream

open Listing

variable {s t : TokenStream}

theorem toList_toListing (s : TokenStream) : s.toListing.toList =
    (s.toList.map fun t => row (kindWidth s.toList) t ++ ['\n']).flatten := by
  rw [toListing, String.toList_ofList, flatten_lines]

theorem toListing_inj (h : s.toListing = t.toListing) : s.toList = t.toList := by
  have hlist := congrArg String.toList h
  rw [toList_toListing, toList_toListing] at hlist
  exact rows_inj hlist

/-- A listing ends in a line break, as there is a token to list. -/
theorem getLast?_toListing (s : TokenStream) : s.toListing.toList.getLast? = some '\n' := by
  have hne : s.toList ≠ [] := by
    have hlt : s.cursor.val < s.toList.length := s.cursor.isLt
    exact List.ne_nil_of_length_pos (Nat.zero_lt_of_lt hlt)
  obtain ⟨front, last, hlist⟩ := s.toList.eq_nil_or_concat.resolve_left hne
  rw [toList_toListing, hlist, List.concat_eq_append, List.map_append, List.flatten_append,
    List.map_singleton, List.flatten_singleton, ← List.append_assoc, List.getLast?_concat]

/-- A listing says what its tokens are. -/
structure ListedPlainly (s : TokenStream) : Prop where
  /-- Each token is written on a line of its own. -/
  rows : ∃ row : Token → List Char, (∀ t, Row t (row t)) ∧
    s.toListing.toList = (s.toList.map fun t => row t ++ ['\n']).flatten
  /-- There are as many line breaks as tokens. -/
  breaks : s.toListing.toList.count '\n' = s.size
  /-- No other tokens have the same listing. -/
  told : ∀ t : TokenStream, s.toListing = t.toListing → s.toList = t.toList

/--
**A listing determines its tokens.**  Whatever characters their values hold, each token is written
on one line, and two streams with the same listing have the same tokens, with the same kinds,
values and positions.
-/
theorem listed_plainly (s : TokenStream) : ListedPlainly s := by
  refine ⟨⟨row (kindWidth s.toList), row_row _, s.toList_toListing⟩, ?_, fun t => toListing_inj⟩
  rw [toList_toListing, count_lineFeed]
  exact Array.length_toList

/-- A value that would end its quotes and its line stays inside both. -/
example : (close [⟨.glob, "*\"\n", 0⟩] 7).toListing =
    "   0  T_GLOB  \"*\\\"\\n\"\n   7  T_END   \"\"\n" := by
  decide +kernel

end TokenStream

end ResourceQuery

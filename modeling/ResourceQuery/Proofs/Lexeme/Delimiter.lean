/-
No lexeme is read in view of what stands behind a delimiter.

In front of a delimiter the recognisers find what they would find in front of the end of
the query.  The one exception is a constant, which can end in a closing parenthesis; but
it does not look behind that.  So what is read of a text that goes on to a delimiter is the
same whatever comes then, and so is the fault if nothing can be read.
-/
import ResourceQuery.Proofs.Lexeme.Reading
import ResourceQuery.Proofs.Literal.Delimiter

namespace ResourceQuery

variable {u v q r raw cs cs' : List Char} {c d : Char} {kind : Kind} {span : Span}

/-! ### Comparisons -/

namespace Comparison

theorem Spelling.not_isDelimiter {operator : String} (h : Spelling raw operator) :
    ∀ c ∈ raw, isDelimiter c = false := by
  intro c hc
  cases h with
  | @named d name head tail =>
      have hname : ∀ c ∈ d :: name, isDelimiter c = false := by
        intro c hc
        refine isDelimiter_of_isLiteral (isLiteral_of_continuesName ?_)
        rcases List.mem_cons.mp hc with rfl | hc
        · exact continuesName_of_isAlpha head
        · exact tail c hc
      rcases List.mem_cons.mp hc with rfl | hc
      · rfl
      · rcases List.mem_append.mp hc with hc | hc
        · exact hname c hc
        · obtain rfl := List.mem_singleton.mp hc
          rfl
  | _ =>
      simp only [List.mem_cons, List.not_mem_nil, or_false] at hc
      rcases hc with rfl | rfl <;> rfl

theorem longest_append_closed_iff (hv : Closed v) : Longest raw (u ++ v) ↔ Longest raw u := by
  constructor
  · rintro h more after rfl hspelled
    exact h more (after ++ v) (List.append_assoc _ _ _) hspelled
  · intro h more after htext hspelled
    obtain ⟨operator, spelling⟩ := hspelled
    have hmore : ∀ c ∈ more, isDelimiter c = false :=
      fun c hc => spelling.not_isDelimiter c (List.mem_append_right raw hc)
    obtain ⟨y, rfl, -⟩ := hv.exists_front hmore htext
    exact h more y rfl ⟨operator, spelling⟩

theorem read?_append_closed (hv : Closed v) : read? (u ++ v) = read? u := by
  ext ⟨n, operator⟩
  constructor
  · intro h
    obtain ⟨raw, rest, htext, rfl, spelling, longest⟩ := read?_eq_some_iff.mp h
    obtain ⟨y, rfl, rfl⟩ := hv.exists_front spelling.not_isDelimiter htext
    exact read?_append spelling ((longest_append_closed_iff hv).mp longest)
  · intro h
    obtain ⟨raw, rest, rfl, rfl, spelling, longest⟩ := read?_eq_some_iff.mp h
    rw [List.append_assoc]
    exact read?_append spelling ((longest_append_closed_iff hv).mpr longest)

theorem follows_append_closed (hv : Closed v) : follows (u ++ v) = follows u := by
  rw [follows, read?_append_closed hv, follows]

end Comparison

/-! ### Constants -/

namespace Constant

/-- Only the last character of a constant is a delimiter. -/
theorem exists_last_of_mem_forms (h : (raw, kind) ∈ forms) :
    ∃ w, raw = w ++ [')'] ∧ (∀ c ∈ w, isDelimiter c = false) ∧ w.getLast? = some '(' := by
  obtain ⟨c, word, rfl, hword, -⟩ := exists_word_of_mem_forms h
  refine ⟨c :: word ++ ['('], by simp, ?_, List.getLast?_concat⟩
  intro d hd
  rcases List.mem_append.mp hd with hd | hd
  · exact isDelimiter_of_isLiteral (hword d hd)
  · obtain rfl := List.mem_singleton.mp hd
    rfl

/-- A constant that starts in front of a delimiter ends there or in front of it. -/
theorem exists_front_of_mem_forms {rest : List Char} (hd : isDelimiter d = true)
    (h : (raw, kind) ∈ forms) (htext : u ++ d :: q = raw ++ rest) :
    ∃ y, u ++ [d] = raw ++ y := by
  obtain ⟨w, rfl, hw, -⟩ := exists_last_of_mem_forms h
  rw [List.append_assoc, List.singleton_append] at htext
  obtain ⟨y, rfl, hy⟩ := (Closed.cons hd q).exists_front hw htext
  cases y with
  | nil =>
      obtain ⟨rfl, -⟩ := List.cons.inj hy
      exact ⟨[], by simp⟩
  | cons e y =>
      obtain ⟨rfl, -⟩ := List.cons.inj hy
      exact ⟨y ++ [d], by simp⟩

theorem read?_delimiter (hd : isDelimiter d = true) :
    read? (u ++ d :: q) = read? (u ++ d :: r) := by
  have hread : ∀ {q r : List Char} {found : Nat × Kind},
      read? (u ++ d :: q) = some found → read? (u ++ d :: r) = some found := by
    intro q r ⟨n, kind⟩ h
    obtain ⟨raw, rest, htext, rfl, form⟩ := form_of_read? h
    obtain ⟨y, hy⟩ := exists_front_of_mem_forms hd form htext
    have htext' : u ++ d :: r = raw ++ (y ++ r) := by
      rw [← List.append_assoc, ← hy, List.append_assoc, List.singleton_append]
    rw [htext']
    exact read?_append form
  ext found
  exact ⟨hread, hread⟩

theorem length_le_of_read?_delimiter {n : Nat} (hd : isDelimiter d = true)
    (h : read? (u ++ d :: q) = some (n, kind)) : n ≤ u.length + 1 := by
  obtain ⟨raw, rest, htext, rfl, form⟩ := form_of_read? h
  obtain ⟨y, hy⟩ := exists_front_of_mem_forms hd form htext
  have hlength := congrArg List.length hy
  simp only [List.length_append, List.length_singleton] at hlength
  omega

theorem length_le_of_read? {n : Nat} (h : read? u = some (n, kind)) : n ≤ u.length := by
  obtain ⟨raw, rest, rfl, rfl, -⟩ := form_of_read? h
  rw [List.length_append]
  exact Nat.le_add_right _ _

theorem read?_eq_none_of_append (h : read? (u ++ v) = none) : read? u = none := by
  cases hread : read? u with
  | none => rfl
  | some found =>
      obtain ⟨raw, rest, rfl, -, form⟩ := form_of_read? hread
      rw [List.append_assoc, read?_append form] at h
      cases h

end Constant

/-! ### Literals -/

namespace Lexeme

theorem textSymbol_append_closed (hv : Closed v) : textSymbol (u ++ v) = textSymbol u := by
  rw [textSymbol, Comparison.follows_append_closed hv, textSymbol]

theorem readWord_append_closed (hv : Closed v) : readWord span (u ++ v) = readWord span u := by
  simp only [readWord, textSymbol_append_closed hv,
    hv.head?_append_iff (show isDelimiter '(' = false from rfl),
    hv.head?_append_iff (show isDelimiter ':' = false from rfl)]

theorem take_delimiter {n : Nat} (hn : n ≤ u.length + 1) :
    (u ++ d :: q).take n = (u ++ d :: r).take n := by
  have hlength : n ≤ (u ++ [d]).length := by simpa using hn
  rw [List.append_cons, List.append_cons u d r, List.take_append_of_le_length hlength,
    List.take_append_of_le_length hlength]

theorem length_read_le (u : List Char) : (Span.read u).length ≤ u.length :=
  (Span.text_read_prefix u).length_le

theorem drop_read_closed (u v : List Char) :
    (u ++ v).drop (Span.read u).length = u.drop (Span.read u).length ++ v :=
  List.drop_append_of_le_length (length_read_le u)

/-- Where the same constant is found, what a literal without escapes is depends on nothing
behind the delimiter. -/
theorem readUnescaped_append_closed (hv : Closed v)
    (hconstant : Constant.read? (u ++ v) = Constant.read? u) :
    readUnescaped c (u ++ v) (Span.read u) = readUnescaped c u (Span.read u) := by
  unfold readUnescaped
  rw [hconstant, Date.read_append_closed hv, Number.read?_append_closed hv, drop_read_closed,
    readWord_append_closed hv]
  cases hread : Constant.read? u with
  | some found =>
      have hn := Constant.length_le_of_read? hread
      simp only [List.take_append_of_le_length hn]
  | none =>
      cases hdate : Date.read u with
      | complete =>
          obtain ⟨raw, rest, rfl, written, -⟩ := Date.read_eq_complete_iff.mp hdate
          have hn : Date.shape.length ≤ (raw ++ rest).length := by
            rw [List.length_append, written.length]
            exact Nat.le_add_right _ _
          simp only [List.take_append_of_le_length hn]
      | incomplete n =>
          have hn := Date.length_le_of_incomplete hdate
          simp only [List.take_append_of_le_length hn]
      | absent =>
          cases hnumber : Number.read? u with
          | some found =>
              have hn := Number.length_le_of_read? hnumber
              simp only [List.take_append_of_le_length hn]
          | none => rfl

theorem readUnescaped_delimiter (hd : isDelimiter d = true) :
    readUnescaped c (u ++ d :: q) (Span.read u) = readUnescaped c (u ++ d :: r) (Span.read u) := by
  have hconstant := Constant.read?_delimiter (u := u) (q := q) (r := r) hd
  cases hread : Constant.read? (u ++ d :: r) with
  | some found =>
      obtain ⟨n, kind⟩ := found
      have hn := Constant.length_le_of_read?_delimiter hd hread
      unfold readUnescaped
      rw [hconstant, hread]
      simp only [take_delimiter (r := r) hn]
  | none =>
      have hnone := Constant.read?_eq_none_of_append hread
      rw [readUnescaped_append_closed (Closed.cons hd q) (by rw [hconstant, hread, hnone]),
        readUnescaped_append_closed (Closed.cons hd r) (by rw [hread, hnone])]

theorem readEscaped_append_closed (hv : Closed v) :
    readEscaped span (u ++ v) = readEscaped span u := by
  simp only [readEscaped, textSymbol_append_closed hv]

theorem malformedText_append_closed (h : (u.drop (Span.read u).length).head? = some '%')
    (hv : Closed v) : malformedText (Span.read u) (u ++ v) = malformedText (Span.read u) u := by
  have hstops : Stops isHexDigit v :=
    hv.stops fun c hc => isDelimiter_of_isLiteral (isLiteral_of_isHexDigit hc)
  have hlength : (Span.read u).length + 1 ≤ u.length := by
    rw [List.head?_drop] at h
    obtain ⟨hlt, -⟩ := List.getElem?_eq_some_iff.mp h
    exact hlt
  rw [malformedText, List.drop_append_of_le_length hlength, takeWhile_append_of_stops _ hstops,
    malformedText]

/-- Only a literal without escapes can depend on what stands behind the delimiter. -/
theorem readLiteral_append_closed (hv : Closed v) :
    readLiteral c (u ++ v) =
      if (u.drop (Span.read u).length).head? = some '%' then
        .error (.malformedEscape (String.ofList (malformedText (Span.read u) u)))
      else if (Span.read u).isEscaped then
        readEscaped (Span.read u) (u.drop (Span.read u).length)
      else readUnescaped c (u ++ v) (Span.read u) := by
  have hpercent : isDelimiter '%' = false := rfl
  simp only [readLiteral, Span.read_append_closed hv, drop_read_closed,
    hv.head?_append_iff hpercent, readEscaped_append_closed hv]
  by_cases h : (u.drop (Span.read u).length).head? = some '%'
  · rw [if_pos h, if_pos h, malformedText_append_closed h hv]
  · rw [if_neg h, if_neg h]

theorem readLiteral_delimiter (hd : isDelimiter d = true) :
    readLiteral c (u ++ d :: q) = readLiteral c (u ++ d :: r) := by
  rw [readLiteral_append_closed (Closed.cons hd q), readLiteral_append_closed (Closed.cons hd r),
    readUnescaped_delimiter (r := r) hd]

theorem readSigned_delimiter (hd : isDelimiter d = true) :
    readSigned kind (u ++ d :: q) = readSigned kind (u ++ d :: r) := by
  simp only [readSigned, Number.read?_append_closed (Closed.cons hd _)]
  cases hnumber : Number.read? u with
  | some found =>
      have hn := Nat.le_succ_of_le (Number.length_le_of_read? hnumber)
      simp only [take_delimiter (r := r) hn]
  | none =>
      have hn : 1 ≤ u.length + 1 := Nat.le_add_left 1 u.length
      simp only [take_delimiter (r := r) hn]

/-- **What is read of a text that goes on to a delimiter is the same whatever stands
behind it**, and so is the fault if nothing is. -/
theorem read_delimiter (hd : isDelimiter d = true) (hcs : c :: cs = u ++ d :: q)
    (hcs' : c :: cs' = u ++ d :: r) : read c cs = read c cs' := by
  simp only [read, hcs, hcs', readComparison, readLiteral_delimiter (r := r) hd,
    readSigned_delimiter (r := r) hd, Comparison.read?_append_closed (Closed.cons hd _)]

end Lexeme

end ResourceQuery

/-
Blanks behind a text make no difference to the lexeme it starts with.

A blank is a delimiter, so to most recognisers the text with a blank behind it is as good as
the text alone.  A constant is the exception among delimiters, since it can end in a closing
parenthesis; but no constant has a blank in it, so what is found in view of a blank ends in
front of it.  Hence the lexeme is the same, and so is the fault where there is none.
-/
import ResourceQuery.Proofs.Lexeme.Seam

namespace ResourceQuery

variable {u v cs : List Char} {c : Char} {kind : Kind}

theorem Constant.read?_append_apart (hv : Apart v) : Constant.read? (u ++ v) = Constant.read? u := by
  ext ⟨n, kind⟩
  constructor
  · intro h
    obtain ⟨raw, rest, htext, rfl, form⟩ := Constant.form_of_read? h
    obtain ⟨y, rfl⟩ := hv.hidden.constant htext form
    exact Constant.read?_append form
  · intro h
    obtain ⟨raw, rest, rfl, rfl, form⟩ := Constant.form_of_read? h
    rw [List.append_assoc]
    exact Constant.read?_append form

namespace Lexeme

theorem readLiteral_append_apart (hv : Apart v) : readLiteral c (u ++ v) = readLiteral c u := by
  rw [readLiteral_append_closed hv.closed,
    readUnescaped_append_closed hv.closed (Constant.read?_append_apart hv)]
  rfl

theorem readSigned_append_apart (hv : Apart v) :
    readSigned kind (c :: cs ++ v) = readSigned kind (c :: cs) := by
  unfold readSigned
  rw [Number.read?_append_closed hv.closed]
  cases hnumber : Number.read? (c :: cs) with
  | some found =>
      have hn := Number.length_le_of_read? hnumber
      simp only [List.take_append_of_le_length hn]
  | none => rfl

/-- **What is read of a text is the same with blanks behind it**, and so is the fault if
nothing is. -/
theorem read_append_apart (hv : Apart v) : read c (cs ++ v) = read c cs := by
  have hcons : c :: (cs ++ v) = c :: cs ++ v := rfl
  simp only [read, readComparison, hcons, Comparison.read?_append_closed hv.closed,
    readSigned_append_apart hv, readLiteral_append_apart hv]

end Lexeme

end ResourceQuery

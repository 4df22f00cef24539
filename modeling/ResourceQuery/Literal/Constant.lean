/-
The four constants, written like a call without arguments.

The parentheses are required, and they settle the matter: `null()` is the
constant whatever follows it, while `null` alone is text and `nullable()` a
call.
-/
import ResourceQuery.Token.Kind

namespace ResourceQuery.Constant

/-- The written forms and the kinds they have. -/
def forms : List (List Char × Kind) :=
  [(['n', 'u', 'l', 'l', '(', ')'], .nullConstant),
    (['t', 'r', 'u', 'e', '(', ')'], .trueConstant),
    (['f', 'a', 'l', 's', 'e', '(', ')'], .falseConstant),
    (['e', 'm', 'p', 't', 'y', '(', ')'], .emptyConstant)]

/-- The constant a text starts with: its length and its kind. -/
def read? (cs : List Char) : Option (Nat × Kind) :=
  (forms.find? (fun form => form.1.isPrefixOf cs)).map (fun form => (form.1.length, form.2))

/-- A constant takes at least one character. -/
theorem read?_length_pos {cs : List Char} {n : Nat} {k : Kind} (h : read? cs = some (n, k)) :
    0 < n := by
  obtain ⟨form, hfind, hform⟩ := Option.map_eq_some_iff.mp h
  have hmem := List.mem_of_find?_eq_some hfind
  simp only [Prod.mk.injEq] at hform
  simp only [forms, List.mem_cons, List.not_mem_nil, or_false] at hmem
  obtain rfl | rfl | rfl | rfl := hmem <;> simp at hform <;> omega

end ResourceQuery.Constant

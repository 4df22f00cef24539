/-
Infix comparisons, and the operators they stand for.

A comparison is written between a field and a value.  The named form, `=name=`,
stands for the operator of that name; the symbols stand for the six usual ones.
Where several forms fit, the named form comes first and the longer symbol before
the shorter.
-/
import ResourceQuery.Literal.Character

namespace ResourceQuery.Comparison

/-- Whether a character can open a comparison. -/
def opens (c : Char) : Bool :=
  c = '=' || c = '!' || c = '<' || c = '>'

/-- The symbols and the operators they stand for, each before any symbol it
extends. -/
def symbols : List (List Char × String) :=
  [(['=', '='], "eq"), (['!', '='], "ne"), (['<', '>'], "ne"), (['<', '='], "le"),
    (['>', '='], "ge"), (['<'], "lt"), (['>'], "gt"), (['='], "eq")]

/-- The name of a comparison written `=name=`, from the text behind its first
character. -/
def named? (cs : List Char) : Option (List Char) :=
  let name := cs.takeWhile continuesName
  if (name.head?.any Char.isAlpha) && (cs.drop name.length).head? = some '=' then some name
  else none

/-- A comparison written as a symbol: its length and its operator. -/
def symbol? (cs : List Char) : Option (Nat × String) :=
  (symbols.find? (fun s => s.1.isPrefixOf cs)).map (fun s => (s.1.length, s.2))

/-- The comparison a text starts with: its length and the operator it stands
for. -/
def read? (cs : List Char) : Option (Nat × String) :=
  match cs with
  | '=' :: rest =>
    match named? rest with
    | some name => some (name.length + 2, String.ofList name)
    | none => symbol? cs
  | _ => symbol? cs

/-- Whether a comparison follows. -/
def follows (cs : List Char) : Bool :=
  (read? cs).isSome

theorem symbol?_length_pos {cs : List Char} {n : Nat} {name : String}
    (h : symbol? cs = some (n, name)) : 0 < n := by
  obtain ⟨s, hfind, hs⟩ := Option.map_eq_some_iff.mp h
  have hmem := List.mem_of_find?_eq_some hfind
  simp only [Prod.mk.injEq] at hs
  simp only [symbols, List.mem_cons, List.not_mem_nil, or_false] at hmem
  obtain rfl | rfl | rfl | rfl | rfl | rfl | rfl | rfl := hmem <;> simp at hs <;> omega

/-- A comparison takes at least one character. -/
theorem read?_length_pos {cs : List Char} {n : Nat} {name : String}
    (h : read? cs = some (n, name)) : 0 < n := by
  unfold read? at h
  split at h
  · split at h
    · simp only [Option.some.injEq, Prod.mk.injEq] at h
      omega
    · exact symbol?_length_pos h
  · exact symbol?_length_pos h

end ResourceQuery.Comparison

/-
Quoted text determines what it quotes.

`Escaped c u` lays down what a character is written as between quotes: by a name behind a
backslash, by its code point behind a backslash, or as it is.  The encoder follows it
(`escaped_encodeChar`), and what holds of quoted text is derived from it alone.

No character's text starts with another's (`Escaped.append_inj`).  A backslash only ever opens
an escape, what stands behind it tells which, and the digits of a code point end at their
brace.  Nor does any start with the quote that ends the whole, so a quoted text is read in one
way, whatever stands behind it (`Quotes.append_inj`).  And as a line break has a name, it stands
in no quoted text.
-/
import ResourceQuery.Proofs.Literal.Runs
import ResourceQuery.Text.Hexadecimal
import ResourceQuery.Text.Quoted

namespace ResourceQuery

/-! ### Digits -/

section Digits

variable {b m n : Nat}

theorem isHexDigit_digitChar : ∀ d < 16, isHexDigit (Nat.digitChar d) = true := by
  decide

theorem hexValue_digitChar : ∀ d < 16, hexValue (Nat.digitChar d) = d := by
  decide

theorem isHexDigit_of_mem_toDigits (hb : 1 < b) (hle : b ≤ 16) (n : Nat) :
    ∀ c ∈ Nat.toDigits b n, isHexDigit c = true := by
  induction n using Nat.strongRecOn with
  | ind n ih =>
      intro c hc
      rw [Nat.toDigits_eq_if hb] at hc
      split at hc
      · rename_i hlt
        rw [List.mem_singleton.mp hc]
        exact isHexDigit_digitChar n (by omega)
      · rcases List.mem_append.mp hc with hc | hc
        · exact ih (n / b) (Nat.div_lt_self (by omega) hb) c hc
        · have hlt := Nat.mod_lt n (Nat.zero_lt_of_lt hb)
          rw [List.mem_singleton.mp hc]
          exact isHexDigit_digitChar (n % b) (by omega)

/-- The digits of a number add up to it. -/
theorem foldl_toDigits (hb : 1 < b) (hle : b ≤ 16) (n : Nat) :
    (Nat.toDigits b n).foldl (fun value c => b * value + hexValue c) 0 = n := by
  induction n using Nat.strongRecOn with
  | ind n ih =>
      rw [Nat.toDigits_eq_if hb]
      split
      · rename_i hlt
        have hvalue := hexValue_digitChar n (by omega)
        rw [List.foldl_cons, List.foldl_nil, hvalue, Nat.mul_zero, Nat.zero_add]
      · have hlt := Nat.mod_lt n (Nat.zero_lt_of_lt hb)
        have hfront := ih (n / b) (Nat.div_lt_self (by omega) hb)
        have hvalue := hexValue_digitChar (n % b) (by omega)
        rw [List.foldl_append, hfront, List.foldl_cons, List.foldl_nil, hvalue,
          Nat.div_add_mod]

/-- A number is told by its digits. -/
theorem toDigits_inj (hb : 1 < b) (hle : b ≤ 16) (h : Nat.toDigits b m = Nat.toDigits b n) :
    m = n := by
  rw [← foldl_toDigits hb hle m, h, foldl_toDigits hb hle n]

end Digits

namespace Text.Quoted

/-- The characters that are written by a name, and their names. -/
inductive Named : Char → Char → Prop
  | null : Named '\x00' '0'
  | tab : Named '\t' 't'
  | lineFeed : Named '\n' 'n'
  | carriageReturn : Named '\r' 'r'
  | quote : Named '"' '"'
  | backslash : Named '\\' '\\'

/-- What stands for a character behind a backslash: its name if it has one, and its code point
if it has none and does not show. -/
inductive Escape : Char → List Char → Prop
  | named {c d : Char} (name : Named c d) : Escape c [d]
  | codePoint {c : Char} (unnamed : ∀ d, ¬ Named c d) (hidden : isHidden c = true) :
      Escape c ('u' :: '\x7b' :: (Nat.toDigits 16 c.toNat ++ ['\x7d']))

/-- What a character is written as. -/
inductive Escaped : Char → List Char → Prop
  | escape {c : Char} {u : List Char} (escape : Escape c u) : Escaped c ('\\' :: u)
  | plain {c : Char} (unnamed : ∀ d, ¬ Named c d) (shown : isHidden c = false) : Escaped c [c]

/-- What a text is written as between quotes. -/
inductive Quotes : List Char → List Char → Prop
  | nil : Quotes [] []
  | cons {c : Char} {u cs v : List Char} (head : Escaped c u) (tail : Quotes cs v) :
      Quotes (c :: cs) (u ++ v)

variable {c d : Char} {u v x y cs ds : List Char}

/-! ### The encoder escapes -/

theorem escaped_encodeChar (c : Char) : Escaped c (encodeChar c) := by
  unfold encodeChar
  split
  · subst_vars
    exact .escape (.named .null)
  split
  · subst_vars
    exact .escape (.named .tab)
  split
  · subst_vars
    exact .escape (.named .lineFeed)
  split
  · subst_vars
    exact .escape (.named .carriageReturn)
  split
  · subst_vars
    exact .escape (.named .quote)
  split
  · subst_vars
    exact .escape (.named .backslash)
  have hunnamed : ∀ d, ¬ Named c d := by
    intro d hname
    cases hname <;> contradiction
  split
  · rename_i hhidden
    exact .escape (.codePoint hunnamed hhidden)
  · rename_i hshown
    exact .plain hunnamed (Bool.eq_false_iff.mpr hshown)

theorem quotes_encode (cs : List Char) : Quotes cs (encode cs) := by
  induction cs with
  | nil => exact .nil
  | cons c cs ih =>
      rw [encode, List.flatMap_cons]
      exact .cons (escaped_encodeChar c) ih

/-! ### One character -/

theorem Named.unique {c' : Char} (h : Named c d) (h' : Named c' d) : c = c' := by
  cases h <;> cases h' <;> rfl

theorem not_named_u (c : Char) : ¬ Named c 'u' := by
  intro h
  cases h

/-- The digits of a code point end at the brace behind them. -/
theorem codePoint_append_inj
    (h : Nat.toDigits 16 c.toNat ++ '\x7d' :: x = Nat.toDigits 16 d.toNat ++ '\x7d' :: y) :
    c = d ∧ x = y := by
  have hdigits := isHexDigit_of_mem_toDigits (b := 16) (by decide) (by decide)
  have hbrace : ∀ z, Stops isHexDigit ('\x7d' :: z) := fun z => Stops.cons_iff.mpr rfl
  obtain ⟨hnumber, hrest⟩ := run_append_inj (hdigits _) (hbrace x) (hdigits _) (hbrace y) h
  have hcode : c.toNat = d.toNat := toDigits_inj (by decide) (by decide) hnumber
  exact ⟨Char.toNat_inj.mp hcode, (List.cons.inj hrest).2⟩

theorem Escape.append_inj (hc : Escape c u) (hd : Escape d v) (h : u ++ x = v ++ y) :
    c = d ∧ x = y := by
  cases hc with
  | named name =>
      cases hd with
      | named name' =>
          obtain ⟨rfl, hrest⟩ := List.cons.inj h
          exact ⟨name.unique name', hrest⟩
      | codePoint =>
          obtain ⟨rfl, -⟩ := List.cons.inj h
          exact absurd name (not_named_u c)
  | codePoint =>
      cases hd with
      | named name =>
          obtain ⟨rfl, -⟩ := List.cons.inj h
          exact absurd name (not_named_u d)
      | codePoint =>
          simp only [List.cons_append, List.append_assoc, List.nil_append, List.cons.injEq,
            true_and] at h
          exact codePoint_append_inj h

/-- What one character is written as never starts with what another is written as. -/
theorem Escaped.append_inj (hc : Escaped c u) (hd : Escaped d v) (h : u ++ x = v ++ y) :
    c = d ∧ x = y := by
  cases hc with
  | escape escape =>
      cases hd with
      | escape escape' => exact escape.append_inj escape' (List.cons.inj h).2
      | plain unnamed =>
          obtain ⟨rfl, -⟩ := List.cons.inj h
          exact absurd .backslash (unnamed _)
  | plain unnamed =>
      cases hd with
      | escape =>
          obtain ⟨rfl, -⟩ := List.cons.inj h
          exact absurd .backslash (unnamed _)
      | plain => exact List.cons.inj h

/-- Nothing that is quoted looks like the end of the quoted text. -/
theorem Escaped.head?_ne (h : Escaped c u) (x : List Char) : (u ++ x).head? ≠ some '"' := by
  cases h with
  | escape => exact nofun
  | plain unnamed =>
      intro hquote
      obtain rfl := Option.some.inj hquote
      exact unnamed _ .quote

theorem Escape.not_mem_lineFeed (h : Escape c u) : '\n' ∉ u := by
  cases h with
  | named name => cases name <;> decide
  | codePoint =>
      intro hmem
      simp only [List.mem_cons, List.mem_append, List.not_mem_nil, or_false] at hmem
      rcases hmem with hmem | hmem | hmem | hmem
      · cases hmem
      · cases hmem
      · have hdigit := isHexDigit_of_mem_toDigits (by decide) (by decide) _ _ hmem
        cases hdigit
      · cases hmem

theorem Escaped.not_mem_lineFeed (h : Escaped c u) : '\n' ∉ u := by
  cases h with
  | escape escape =>
      rw [List.mem_cons, not_or]
      exact ⟨by decide, escape.not_mem_lineFeed⟩
  | plain unnamed =>
      intro hmem
      obtain rfl := List.mem_singleton.mp hmem
      exact unnamed _ .lineFeed

/-! ### A whole text -/

theorem Quotes.not_mem_lineFeed (h : Quotes cs u) : '\n' ∉ u := by
  induction h with
  | nil => exact List.not_mem_nil
  | cons head _ ih =>
      rw [List.mem_append, not_or]
      exact ⟨head.not_mem_lineFeed, ih⟩

/-- What stands between quotes is told by its text, and so is where it ends. -/
theorem Quotes.append_inj (hc : Quotes cs u) (hd : Quotes ds v)
    (h : u ++ '"' :: x = v ++ '"' :: y) : cs = ds ∧ x = y := by
  induction hc generalizing ds v with
  | nil =>
      cases hd with
      | nil => exact ⟨rfl, (List.cons.inj h).2⟩
      | cons head _ =>
          rw [List.append_assoc] at h
          exact absurd (congrArg List.head? h.symm) (head.head?_ne _)
  | cons head _ ih =>
      cases hd with
      | nil =>
          rw [List.append_assoc] at h
          exact absurd (congrArg List.head? h) (head.head?_ne _)
      | cons head' tail' =>
          rw [List.append_assoc, List.append_assoc] at h
          obtain ⟨rfl, hrest⟩ := head.append_inj head' h
          obtain ⟨rfl, hbehind⟩ := ih tail' hrest
          exact ⟨rfl, hbehind⟩

end Text.Quoted

end ResourceQuery

/-
A JSON text is read back as the value it was printed from, in either layout.

`Readable` are the values for which this holds outright: no floating point numbers, integers
that are words, the members of an object in the order of their names, and no more levels
than the reader allows.  The induction is on such a value, and what it carries is `Reads`: a
reader takes the value off the front of a text, whatever blanks stand in front of it, and
whatever stands behind it that would not go on with a numeral.  Both layouts put nothing but
blanks between the parts of a value, so neither makes a difference to it.
-/
import ResourceQuery.Proofs.Json.Scalar

namespace ResourceQuery.Json

/-- A value that is read back as it is printed, nested at most `depth` levels deep. -/
inductive Readable : (depth : Nat) → Json → Prop
  | null {depth : Nat} : Readable depth .null
  | bool {depth : Nat} (b : Bool) : Readable depth (.bool b)
  | integer {depth : Nat} {n : Int} (word : IsWord n) : Readable depth (.integer n)
  | string {depth : Nat} (s : String) : Readable depth (.string s)
  | array {depth : Nat} {items : List Json} (readable : ∀ j ∈ items, Readable depth j) :
      Readable (depth + 1) (.array items)
  | object {depth : Nat} {members : List (String × Json)}
      (sorted : members.Pairwise (fun m l => m.1 < l.1))
      (readable : ∀ m ∈ members, Readable depth m.2) : Readable (depth + 1) (.object members)

/-- A reader takes a printed value off the front of a text. -/
def Reads (value : ValueReader) (layout : Layout) (level : Nat) (j : Json) : Prop :=
  ∀ blanks rest : List Char, (∀ c ∈ blanks, isSpace c = true) → Stops continuesNumeral rest →
    value (blanks ++ (print layout level j ++ rest)) = some (j, rest)

variable {layout : Layout} {level outer depth bound : Nat} {value : ValueReader} {j item : Json}
  {items : List Json} {members known : List (String × Json)} {m : String × Json} {name : String} {c : Char}
  {blanks cs next behind more rest : List Char}

/-! ### Blanks -/

theorem isSpace_of_mem_lineBreak : ∀ c ∈ layout.lineBreak level, isSpace c = true := by
  cases layout with
  | compact => nofun
  | pretty =>
      intro c hc
      rcases List.mem_cons.mp hc with rfl | hc
      · rfl
      · rw [List.eq_of_mem_replicate hc]
        rfl

theorem skipSpace_append (hblanks : ∀ c ∈ blanks, isSpace c = true) (hc : isSpace c = false) :
    skipSpace (blanks ++ c :: cs) = c :: cs :=
  dropWhile_append_stops hblanks (Stops.cons_iff.mpr hc)

theorem skipSpace_lineBreak (hc : isSpace c = false) :
    skipSpace (layout.lineBreak level ++ c :: cs) = c :: cs :=
  skipSpace_append isSpace_of_mem_lineBreak hc

theorem stops_lineBreak (hc : continuesNumeral c = false) :
    Stops continuesNumeral (layout.lineBreak level ++ c :: cs) := by
  cases layout with
  | compact => exact Stops.cons_iff.mpr hc
  | pretty => exact Stops.cons_iff.mpr rfl

/-! ### How a value starts -/

/-- Characters that a printed value starts with if it holds no other. -/
def opensScalar (c : Char) : Bool :=
  c.isDigit || c = '-' || c = '"' || c = 'n' || c = 't' || c = 'f'

/-- Characters that a printed value starts with. -/
def opensValue (c : Char) : Bool :=
  opensScalar c || c = '[' || c = '\x7b'

theorem opensValue_of_opensScalar (h : opensScalar c = true) : opensValue c = true := by
  rw [opensValue, h]
  rfl

theorem not_isSpace_of_opensValue (h : opensValue c = true) : isSpace c = false := by
  rw [Bool.eq_false_iff]
  intro hspace
  simp only [isSpace, Bool.or_eq_true, decide_eq_true_eq] at hspace
  rcases hspace with ((rfl | rfl) | rfl) | rfl <;> cases h

theorem exists_printInteger (n : Int) :
    ∃ c cs, printInteger n = c :: cs ∧ (c.isDigit = true ∨ c = '-') := by
  by_cases hn : n < 0
  · exact ⟨_, _, by rw [printInteger, if_pos hn], Or.inr rfl⟩
  · obtain ⟨d, ds, hds⟩ := List.exists_cons_of_ne_nil (@Nat.toDigits_ne_nil n.natAbs 10)
    refine ⟨d, ds, by rw [printInteger, if_neg hn, hds], Or.inl ?_⟩
    exact isDigit_of_mem_toDigits d (hds ▸ List.mem_cons_self)

theorem opensScalar_of_numeral (h : c.isDigit = true ∨ c = '-') : opensScalar c = true := by
  rcases h with h | rfl
  · rw [opensScalar, h]
    rfl
  · rfl

theorem exists_print (h : Readable depth j) :
    ∃ c cs, print layout level j = c :: cs ∧ opensValue c = true := by
  cases h with
  | null => exact ⟨_, _, by rw [print], rfl⟩
  | bool b => cases b <;> exact ⟨_, _, by rw [print], rfl⟩
  | @integer _ n word =>
      obtain ⟨c, cs, hprint, hc⟩ := exists_printInteger n
      exact ⟨c, cs, by rw [print, hprint],
        opensValue_of_opensScalar (opensScalar_of_numeral hc)⟩
  | string s => exact ⟨_, _, by rw [print, printString]; rfl, rfl⟩
  | @array _ items _ => cases items <;> exact ⟨_, _, by rw [print]; try rfl, rfl⟩
  | @object _ members _ _ => cases members <;> exact ⟨_, _, by rw [print]; try rfl, rfl⟩

/-! ### Values that hold no other -/

theorem reads_of_readScalar? (hprint : print layout level j = c :: cs) (hc : opensScalar c = true)
    (h : ∀ rest, Stops continuesNumeral rest →
      readScalar? (print layout level j ++ rest) = some (j, rest)) :
    Reads (readValue? depth) layout level j := by
  intro blanks rest hblanks hrest
  have hscalar := h rest hrest
  have hskip : skipSpace (blanks ++ (print layout level j ++ rest))
      = print layout level j ++ rest := by
    rw [hprint]
    exact skipSpace_append hblanks (not_isSpace_of_opensValue (opensValue_of_opensScalar hc))
  cases depth with
  | zero => rw [readValue?, hskip, hscalar]
  | succ depth =>
      rw [readValue?, hskip]
      rw [hprint] at hscalar ⊢
      split
      · rename_i hcons
        rw [(List.cons.inj hcons).1] at hc
        cases hc
      · rename_i hcons
        rw [(List.cons.inj hcons).1] at hc
        cases hc
      · exact hscalar

theorem reads_null : Reads (readValue? depth) layout level .null := by
  refine reads_of_readScalar? (by rw [print]) rfl ?_
  intro rest _
  simp [print, readScalar?, readWord?]

theorem reads_bool (b : Bool) : Reads (readValue? depth) layout level (.bool b) := by
  cases b
  all_goals
    refine reads_of_readScalar? (by rw [print]) rfl ?_
    intro rest _
    simp [print, readScalar?, readWord?]

theorem reads_string (s : String) : Reads (readValue? depth) layout level (.string s) := by
  refine reads_of_readScalar? (by rw [print, printString]; rfl) rfl ?_
  intro rest _
  simp [print, printString, readScalar?, readString?_encoded]

theorem readScalar?_numeral (hc : c.isDigit = true ∨ c = '-') :
    readScalar? (c :: cs) =
      (Numeral.read? (c :: cs)).bind fun p => p.1.value?.bind fun j => some (j, p.2) := by
  rw [readScalar?]
  · rfl
  all_goals
    intro rest hcons
    rw [(List.cons.inj hcons).1] at hc
    rcases hc with hc | hc <;> cases hc

theorem reads_integer {n : Int} (hn : IsWord n) :
    Reads (readValue? depth) layout level (.integer n) := by
  obtain ⟨c, cs, hprint, hc⟩ := exists_printInteger n
  refine reads_of_readScalar? (by rw [print, hprint]) (opensScalar_of_numeral hc) ?_
  intro rest hrest
  have hread := Numeral.read?_printInteger n hrest
  rw [print]
  rw [hprint, List.cons_append] at hread ⊢
  rw [readScalar?_numeral hc, hread]
  show (Numeral.value? _).bind _ = _
  rw [Numeral.value?_printInteger hn]
  rfl

/-! ### Arrays -/

theorem length_printItems : items.length ≤ (printItems layout level items).length := by
  induction items with
  | nil => exact Nat.zero_le _
  | cons item items ih =>
      simp only [printItems, List.length_append, List.length_cons]
      omega

theorem readItems?_last (hitem : value cs = some (item, next)) (hnext : skipSpace next = ']' :: rest) :
    readItems? value (bound + 1) cs = some ([item], rest) := by
  simp [readItems?, hitem, hnext]

theorem readItems?_more (hitem : value cs = some (item, next))
    (hnext : skipSpace next = ',' :: behind)
    (hitems : readItems? value bound behind = some (items, rest)) :
    readItems? value (bound + 1) cs = some (item :: items, rest) := by
  simp [readItems?, hitem, hnext, hitems]

/-- The items of an array are read one behind the other up to the closing bracket. -/
theorem readItems?_print (hreads : ∀ j ∈ item :: items, Reads value layout level j)
    (hblanks : ∀ c ∈ blanks, isSpace c = true) (hbound : items.length < bound) :
    readItems? value bound (blanks ++ (print layout level item ++
      (printItems layout level items ++ (layout.lineBreak outer ++ ']' :: rest)))) =
        some (item :: items, rest) := by
  induction items generalizing item bound blanks with
  | nil =>
      obtain ⟨bound, rfl⟩ := Nat.exists_eq_add_of_lt hbound
      exact readItems?_last (hreads item List.mem_cons_self blanks _ hblanks
        (stops_lineBreak (by rfl))) (skipSpace_lineBreak rfl)
  | cons following items ih =>
      obtain ⟨bound, rfl⟩ := Nat.exists_eq_add_of_lt hbound
      have hitems := ih (fun j hj => hreads j (List.mem_cons_of_mem _ hj))
        (@isSpace_of_mem_lineBreak layout level)
        (Nat.lt_add_right bound (Nat.lt_succ_self _))
      rw [printItems]
      simp only [List.append_assoc, List.cons_append]
      exact readItems?_more (hreads item List.mem_cons_self blanks _ hblanks
        (Stops.cons_iff.mpr (by rfl))) rfl hitems

theorem readArray?_nil : readArray? value (']' :: rest) = some (.array [], rest) :=
  rfl

theorem readArray?_cons (hcs : Stops (· = ']') (skipSpace cs))
    (hitems : readItems? value cs.length cs = some (items, rest)) :
    readArray? value cs = some (.array items, rest) := by
  unfold readArray?
  split
  · rename_i hcons
    rw [hcons] at hcs
    exact absurd (Stops.cons_iff.mp hcs) (by simp)
  · rw [hitems]
    rfl

theorem readValue?_array (hblanks : ∀ c ∈ blanks, isSpace c = true) :
    readValue? (depth + 1) (blanks ++ '[' :: cs) = readArray? (readValue? depth) cs := by
  rw [readValue?, skipSpace_append hblanks rfl]
  rfl

theorem reads_array (hreadable : ∀ j ∈ items, Readable depth j)
    (hreads : ∀ j ∈ items, Reads (readValue? depth) layout (level + 1) j) :
    Reads (readValue? (depth + 1)) layout level (.array items) := by
  intro blanks rest hblanks _
  cases items with
  | nil =>
      rw [print]
      exact (readValue?_array hblanks).trans readArray?_nil
  | cons item items =>
      rw [print]
      simp only [List.append_assoc, List.cons_append, List.nil_append]
      rw [readValue?_array hblanks]
      refine readArray?_cons ?_ (readItems?_print hreads isSpace_of_mem_lineBreak ?_)
      · obtain ⟨c, cs, hprint, hc⟩ := exists_print (hreadable item List.mem_cons_self)
        rw [hprint, List.cons_append, skipSpace_lineBreak (not_isSpace_of_opensValue hc)]
        rw [Stops.cons_iff, decide_eq_false_iff_not]
        rintro rfl
        cases hc
      · have hlength := @length_printItems layout (level + 1) items
        simp only [List.length_append, List.length_cons]
        omega

/-! ### Objects -/

theorem insertMember_last {value : Json} (h : ∀ m ∈ known, m.1 < name) :
    insertMember name value known = known ++ [(name, value)] := by
  induction known with
  | nil => rfl
  | cons m known ih =>
      have hm := h m List.mem_cons_self
      have hne : name ≠ m.1 := fun heq => String.lt_irrefl _ (heq ▸ hm)
      rw [insertMember, if_neg (String.lt_asymm hm), if_neg hne,
        ih fun l hl => h l (List.mem_cons_of_mem m hl), List.cons_append]

theorem foldl_insertMember (h : (known ++ members).Pairwise fun m l => m.1 < l.1) :
    members.foldl (fun known m => insertMember m.1 m.2 known) known = known ++ members := by
  induction members generalizing known with
  | nil => simp
  | cons m members ih =>
      have hlast : ∀ l ∈ known, l.1 < m.1 := fun l hl =>
        (List.pairwise_append.mp h).2.2 l hl m List.mem_cons_self
      rw [List.foldl_cons, insertMember_last hlast, ih (by simpa using h)]
      simp

/-- Members in the order of their names are the members of their object. -/
theorem ofMembers_of_sorted (h : members.Pairwise fun m l => m.1 < l.1) :
    ofMembers members = .object members := by
  rw [ofMembers, foldl_insertMember (by simpa using h), List.nil_append]

theorem length_printMembers : members.length ≤ (printMembers layout level members).length := by
  induction members with
  | nil => exact Nat.zero_le _
  | cons m members ih =>
      simp only [printMembers, List.length_append, List.length_cons]
      omega

theorem exists_colon (layout : Layout) :
    ∃ gap, layout.colon = ':' :: gap ∧ ∀ c ∈ gap, isSpace c = true := by
  cases layout with
  | compact => exact ⟨[], rfl, by nofun⟩
  | pretty => exact ⟨[' '], rfl, by simp [isSpace]⟩

theorem readMember?_of_parts (hquote : skipSpace cs = '"' :: next)
    (hname : readString? next = some (name.toList, behind)) (hcolon : skipSpace behind = ':' :: more)
    (hvalue : value more = some (j, rest)) :
    readMember? value cs = some ((name, j), rest) := by
  simp [readMember?, hquote, hname, hcolon, hvalue]

theorem readMember?_print (hreads : Reads value layout level j)
    (hblanks : ∀ c ∈ blanks, isSpace c = true) (hrest : Stops continuesNumeral rest) :
    readMember? value (blanks ++ (printString name ++ (layout.colon ++
      (print layout level j ++ rest)))) = some ((name, j), rest) := by
  obtain ⟨gap, hcolon, hgap⟩ := exists_colon layout
  rw [printString, hcolon]
  simp only [List.append_assoc, List.cons_append, List.nil_append]
  exact readMember?_of_parts (skipSpace_append hblanks rfl) (readString?_encoded name.toList _) rfl
    (hreads gap rest hgap hrest)

theorem readMembers?_last (hmember : readMember? value cs = some (m, next))
    (hnext : skipSpace next = '\x7d' :: rest) :
    readMembers? value (bound + 1) cs = some ([m], rest) := by
  simp [readMembers?, hmember, hnext]

theorem readMembers?_more (hmember : readMember? value cs = some (m, next))
    (hnext : skipSpace next = ',' :: behind)
    (hmembers : readMembers? value bound behind = some (members, rest)) :
    readMembers? value (bound + 1) cs = some (m :: members, rest) := by
  simp [readMembers?, hmember, hnext, hmembers]

/-- The members of an object are read one behind the other up to the closing brace. -/
theorem readMembers?_print (hreads : ∀ l ∈ m :: members, Reads value layout level l.2)
    (hblanks : ∀ c ∈ blanks, isSpace c = true) (hbound : members.length < bound) :
    readMembers? value bound (blanks ++ (printString m.1 ++ (layout.colon ++
      (print layout level m.2 ++ (printMembers layout level members ++
        (layout.lineBreak outer ++ '\x7d' :: rest)))))) = some (m :: members, rest) := by
  induction members generalizing m bound blanks with
  | nil =>
      obtain ⟨bound, rfl⟩ := Nat.exists_eq_add_of_lt hbound
      exact readMembers?_last (readMember?_print (hreads m List.mem_cons_self) hblanks
        (stops_lineBreak (by rfl))) (skipSpace_lineBreak rfl)
  | cons following members ih =>
      obtain ⟨bound, rfl⟩ := Nat.exists_eq_add_of_lt hbound
      have hmembers := ih (fun l hl => hreads l (List.mem_cons_of_mem _ hl))
        (@isSpace_of_mem_lineBreak layout level)
        (Nat.lt_add_right bound (Nat.lt_succ_self _))
      rw [printMembers]
      simp only [List.append_assoc, List.cons_append]
      exact readMembers?_more (readMember?_print (hreads m List.mem_cons_self) hblanks
        (Stops.cons_iff.mpr (by rfl))) rfl hmembers

theorem readObject?_nil : readObject? value ('\x7d' :: rest) = some (.object [], rest) :=
  rfl

theorem readObject?_cons (hcs : Stops (· = '\x7d') (skipSpace cs))
    (hmembers : readMembers? value cs.length cs = some (members, rest)) :
    readObject? value cs = some (.ofMembers members, rest) := by
  unfold readObject?
  split
  · rename_i hcons
    rw [hcons] at hcs
    exact absurd (Stops.cons_iff.mp hcs) (by simp)
  · rw [hmembers]
    rfl

theorem readValue?_object (hblanks : ∀ c ∈ blanks, isSpace c = true) :
    readValue? (depth + 1) (blanks ++ '\x7b' :: cs) = readObject? (readValue? depth) cs := by
  rw [readValue?, skipSpace_append hblanks rfl]
  rfl

theorem reads_object (hsorted : members.Pairwise fun m l => m.1 < l.1)
    (hreads : ∀ m ∈ members, Reads (readValue? depth) layout (level + 1) m.2) :
    Reads (readValue? (depth + 1)) layout level (.object members) := by
  intro blanks rest hblanks _
  cases members with
  | nil =>
      rw [print]
      exact (readValue?_object hblanks).trans readObject?_nil
  | cons m members =>
      rw [print]
      simp only [List.append_assoc, List.cons_append, List.nil_append]
      rw [readValue?_object hblanks, ← ofMembers_of_sorted hsorted]
      refine readObject?_cons ?_ (readMembers?_print hreads isSpace_of_mem_lineBreak ?_)
      · rw [printString, List.cons_append, List.cons_append, skipSpace_lineBreak rfl]
        exact Stops.cons_iff.mpr rfl
      · have hlength := @length_printMembers layout (level + 1) members
        simp only [List.length_append, List.length_cons]
        omega

/-! ### All values -/

/-- The reader takes every printed value off the front of a text. -/
theorem reads_readValue? (h : Readable depth j) : Reads (readValue? depth) layout level j := by
  induction h generalizing level with
  | null => exact reads_null
  | bool b => exact reads_bool b
  | integer word => exact reads_integer word
  | string s => exact reads_string s
  | array readable ih => exact reads_array readable fun j hj => ih j hj
  | object sorted _ ih => exact reads_object sorted fun m hm => ih m hm

/-- **A JSON text stands for the value it was printed from, in either layout.** -/
theorem parse?_render (h : Readable depthLimit j) (layout : Layout) :
    parse? (j.render layout) = some j := by
  have hread := @reads_readValue? layout 0 depthLimit j h [] [] (by nofun) Stops.nil
  rw [List.nil_append, List.append_nil] at hread
  rw [parse?, render, String.toList_ofList, hread]
  rfl

end ResourceQuery.Json

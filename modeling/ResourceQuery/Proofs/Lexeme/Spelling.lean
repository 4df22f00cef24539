/-
How a comparison may be written, and that the longest way is the one read.

`Comparison.read?` tries its forms in a fixed order: the named form, then the
symbols in the order of a table.  `Spelling` lists the forms without any order.
What the order comes to is that of all spellings a text starts with, the longest is
read; so what stands behind a comparison matters only as far as it could have made
it longer.
-/
import ResourceQuery.Comparison
import ResourceQuery.Proofs.Literal.Runs

namespace ResourceQuery.Comparison

/-- The spellings of a comparison, and the operators they stand for. -/
inductive Spelling : List Char → String → Prop
  | named {c : Char} {name : List Char} (head : c.isAlpha = true)
      (tail : ∀ d ∈ name, continuesName d = true) :
      Spelling ('=' :: (c :: name ++ ['='])) (String.ofList (c :: name))
  | equal : Spelling ['='] "eq"
  | equalEqual : Spelling ['=', '='] "eq"
  | notEqual : Spelling ['!', '='] "ne"
  | lessGreater : Spelling ['<', '>'] "ne"
  | less : Spelling ['<'] "lt"
  | lessEqual : Spelling ['<', '='] "le"
  | greater : Spelling ['>'] "gt"
  | greaterEqual : Spelling ['>', '='] "ge"

/-- A text is a spelling of some operator. -/
def Spelled (raw : List Char) : Prop :=
  ∃ name, Spelling raw name

/-- No longer spelling starts where `raw` does. -/
def Longest (raw rest : List Char) : Prop :=
  ∀ more after, rest = more ++ after → Spelled (raw ++ more) → more = []

variable {raw rest cs name : List Char} {c : Char} {operator operator' : String} {n : Nat}

theorem Spelling.exists_opens (h : Spelling raw operator) :
    ∃ c cs, raw = c :: cs ∧ opens c = true := by
  cases h <;> exact ⟨_, _, rfl, rfl⟩

theorem Spelling.exists_last (h : Spelling raw operator) :
    ∃ u d, raw = u ++ [d] ∧ opens d = true ∧ d ≠ '!' := by
  cases h with
  | named => exact ⟨_, '=', (List.cons_append ..).symm, rfl, by decide⟩
  | equal => exact ⟨[], '=', rfl, rfl, by decide⟩
  | equalEqual => exact ⟨['='], '=', rfl, rfl, by decide⟩
  | notEqual => exact ⟨['!'], '=', rfl, rfl, by decide⟩
  | lessGreater => exact ⟨['<'], '>', rfl, rfl, by decide⟩
  | less => exact ⟨[], '<', rfl, rfl, by decide⟩
  | lessEqual => exact ⟨['<'], '=', rfl, rfl, by decide⟩
  | greater => exact ⟨[], '>', rfl, rfl, by decide⟩
  | greaterEqual => exact ⟨['>'], '=', rfl, rfl, by decide⟩

theorem continuesName_of_isAlpha (h : c.isAlpha = true) : continuesName c = true := by
  simp [continuesName, Char.isAlphanum, h]

/-! ### The named form -/

theorem named?_append (hc : c.isAlpha = true) (hname : ∀ d ∈ name, continuesName d = true) :
    named? (c :: name ++ '=' :: rest) = some (c :: name) := by
  have hall : ∀ d ∈ c :: name, continuesName d = true := by
    intro d hd
    rcases List.mem_cons.mp hd with rfl | hd
    · exact continuesName_of_isAlpha hc
    · exact hname d hd
  have htake : (c :: name ++ '=' :: rest).takeWhile continuesName = c :: name :=
    takeWhile_append_stops hall (Stops.cons_iff.mpr rfl)
  simp only [named?, htake, List.drop_left]
  simp [hc]

theorem eq_append_of_named? (h : named? cs = some name) :
    ∃ c tail rest, name = c :: tail ∧ c.isAlpha = true ∧
      (∀ d ∈ tail, continuesName d = true) ∧ cs = name ++ '=' :: rest := by
  simp only [named?] at h
  split at h
  · rename_i hcond
    simp only [Bool.and_eq_true, Option.any_eq_true, decide_eq_true_eq] at hcond
    obtain ⟨⟨c, hhead, hc⟩, hequal⟩ := hcond
    obtain rfl := Option.some.inj h
    obtain ⟨tail, htail⟩ := List.head?_eq_some_iff.mp hhead
    obtain ⟨rest, hrest⟩ := List.head?_eq_some_iff.mp hequal
    refine ⟨c, tail, rest, htail, hc, ?_, ?_⟩
    · intro d hd
      exact List.all_eq_true.mp List.all_takeWhile d (htail ▸ List.mem_cons_of_mem c hd)
    · rw [← hrest]
      exact (List.prefix_iff_eq_append.mp (List.takeWhile_prefix _)).symm
  · cases h

/-! ### What is read is a spelling, and the longest -/

theorem read?_of_not_named (h : named? cs = none) :
    read? ('=' :: cs) = symbol? ('=' :: cs) := by
  simp [read?, h]

/-- Nothing that would spell a longer comparison stands behind the longest. -/
theorem Longest.not_isPrefixOf (hlongest : Longest raw rest) (hspelled : Spelled (raw ++ [c])) :
    [c].isPrefixOf rest = false := by
  rw [Bool.eq_false_iff]
  intro hprefix
  obtain ⟨after, rfl⟩ := List.isPrefixOf_iff_prefix.mp hprefix
  have := hlongest [c] after rfl hspelled
  cases this

theorem Longest.not_named (hlongest : Longest ['='] rest) : named? rest = none := by
  cases hnamed : named? rest with
  | none => rfl
  | some name =>
      obtain ⟨c, tail, after, rfl, hc, htail, rfl⟩ := eq_append_of_named? hnamed
      have := hlongest (c :: tail ++ ['=']) after (by simp) ⟨_, .named hc htail⟩
      cases this

/-- The named form is read whatever stands behind it. -/
theorem read?_named (hc : c.isAlpha = true) (hname : ∀ d ∈ name, continuesName d = true)
    (rest : List Char) : read? ('=' :: (c :: name ++ '=' :: rest)) =
      some ((c :: name).length + 2, String.ofList (c :: name)) := by
  simp only [read?, named?_append hc hname]

theorem read?_append (hspelling : Spelling raw operator) (hlongest : Longest raw rest) :
    read? (raw ++ rest) = some (raw.length, operator) := by
  cases hspelling with
  | @named c name head tail =>
      have hread := read?_named head tail rest
      rw [List.cons_append, List.append_assoc, List.singleton_append, hread]
      simp
  | equal =>
      have hequal : ['='].isPrefixOf rest = false := hlongest.not_isPrefixOf ⟨_, .equalEqual⟩
      rw [List.singleton_append, read?_of_not_named hlongest.not_named]
      simp [symbol?, symbols, hequal]
  | equalEqual =>
      have hnamed : named? ('=' :: rest) = none := by simp [named?, continuesName]
      rw [List.cons_append, List.singleton_append, read?_of_not_named hnamed]
      simp [symbol?, symbols]
  | less =>
      have hequal : ['='].isPrefixOf rest = false := hlongest.not_isPrefixOf ⟨_, .lessEqual⟩
      have hgreater : ['>'].isPrefixOf rest = false :=
        hlongest.not_isPrefixOf ⟨_, .lessGreater⟩
      simp [read?, symbol?, symbols, hequal, hgreater]
  | greater =>
      have hequal : ['='].isPrefixOf rest = false := hlongest.not_isPrefixOf ⟨_, .greaterEqual⟩
      simp [read?, symbol?, symbols, hequal]
  | notEqual => simp [read?, symbol?, symbols]
  | lessGreater => simp [read?, symbol?, symbols]
  | lessEqual => simp [read?, symbol?, symbols]
  | greaterEqual => simp [read?, symbol?, symbols]

theorem spelling_of_symbol? (h : symbol? cs = some (n, operator)) :
    ∃ raw rest, cs = raw ++ rest ∧ Spelling raw operator := by
  obtain ⟨⟨raw, _⟩, hfind, hs⟩ := Option.map_eq_some_iff.mp h
  obtain ⟨-, rfl⟩ := Prod.mk.inj hs
  have hprefix : raw.isPrefixOf cs = true := by simpa using List.find?_some hfind
  obtain ⟨rest, rfl⟩ := List.isPrefixOf_iff_prefix.mp hprefix
  refine ⟨raw, rest, rfl, ?_⟩
  have hmem := List.mem_of_find?_eq_some hfind
  simp only [symbols, List.mem_cons, List.not_mem_nil, or_false, Prod.mk.injEq] at hmem
  rcases hmem with ⟨rfl, rfl⟩ | ⟨rfl, rfl⟩ | ⟨rfl, rfl⟩ | ⟨rfl, rfl⟩ | ⟨rfl, rfl⟩ |
    ⟨rfl, rfl⟩ | ⟨rfl, rfl⟩ | ⟨rfl, rfl⟩ <;> constructor

theorem spelling_of_read? (h : read? cs = some (n, operator)) :
    ∃ raw rest, cs = raw ++ rest ∧ Spelling raw operator := by
  unfold read? at h
  split at h
  · rename_i cs
    split at h
    · rename_i name hnamed
      obtain ⟨-, rfl⟩ := Prod.mk.inj (Option.some.inj h)
      obtain ⟨c, tail, rest, rfl, hc, htail, rfl⟩ := eq_append_of_named? hnamed
      exact ⟨_, rest, by simp, .named hc htail⟩
    · exact spelling_of_symbol? h
  · exact spelling_of_symbol? h

/-- Where a text starts with a spelling, it starts with a longest one. -/
theorem exists_longest (raw rest : List Char) (h : Spelled raw) :
    ∃ raw' rest', raw ++ rest = raw' ++ rest' ∧ Spelled raw' ∧ Longest raw' rest' := by
  by_cases hlongest : Longest raw rest
  · exact ⟨raw, rest, rfl, h, hlongest⟩
  · simp only [Longest, Classical.not_forall] at hlongest
    obtain ⟨more, after, rfl, hspelled, hmore⟩ := hlongest
    have := List.length_pos_iff.mpr hmore
    have hshorter : after.length < (more ++ after).length := by
      rw [List.length_append]
      omega
    obtain ⟨raw', rest', heq, hlongest⟩ := exists_longest (raw ++ more) after hspelled
    exact ⟨raw', rest', by rw [← heq, List.append_assoc], hlongest⟩
termination_by rest.length

/-- **A comparison is read as the longest of its spellings.** -/
theorem read?_eq_some_iff :
    read? cs = some (n, operator) ↔
      ∃ raw rest, cs = raw ++ rest ∧ n = raw.length ∧ Spelling raw operator ∧
        Longest raw rest := by
  constructor
  · intro h
    obtain ⟨raw', rest', rfl, hsome⟩ := spelling_of_read? h
    obtain ⟨raw, rest, heq, ⟨operator', hspelling⟩, hlongest⟩ :=
      exists_longest raw' rest' ⟨operator, hsome⟩
    rw [heq, read?_append hspelling hlongest] at h
    obtain ⟨rfl, rfl⟩ := Prod.mk.inj (Option.some.inj h)
    exact ⟨raw, rest, heq, rfl, hspelling, hlongest⟩
  · rintro ⟨raw, rest, rfl, rfl, hspelling, hlongest⟩
    exact read?_append hspelling hlongest

/-- What is taken whole is a spelling, and the longest there is. -/
theorem read?_append_iff :
    read? (raw ++ rest) = some (raw.length, operator) ↔
      Spelling raw operator ∧ Longest raw rest := by
  rw [read?_eq_some_iff]
  constructor
  · rintro ⟨raw', rest', htext, hlength, hspelling, hlongest⟩
    obtain ⟨rfl, rfl⟩ := List.append_inj htext hlength
    exact ⟨hspelling, hlongest⟩
  · rintro ⟨hspelling, hlongest⟩
    exact ⟨raw, rest, rfl, rfl, hspelling, hlongest⟩

theorem longest_nil : Longest raw [] := by
  intro more after htext _
  exact (List.append_eq_nil_iff.mp htext.symm).1

theorem spelled_iff : Spelled raw ↔ (read? raw).any (fun found => found.1 = raw.length) := by
  simp only [Option.any_eq_true, decide_eq_true_eq]
  constructor
  · rintro ⟨operator, hspelling⟩
    have hread := read?_append hspelling longest_nil
    rw [List.append_nil] at hread
    exact ⟨_, hread, rfl⟩
  · rintro ⟨⟨n, operator⟩, hread, rfl⟩
    have hwhole : read? (raw ++ []) = some (raw.length, operator) := by rwa [List.append_nil]
    exact ⟨operator, (read?_append_iff.mp hwhole).1⟩

instance : Decidable (Spelled raw) :=
  decidable_of_iff _ spelled_iff.symm

/-! ### Every operator has a named form -/

/-- An operator in its named form. -/
def namedForm (operator : String) : List Char :=
  '=' :: (operator.toList ++ ['='])

/-- Every operator bears a name. -/
theorem Spelling.exists_name (h : Spelling raw operator) : ∃ c name,
    operator.toList = c :: name ∧ c.isAlpha = true ∧ ∀ d ∈ name, continuesName d = true := by
  have hall : operator.toList.head?.any Char.isAlpha && operator.toList.all continuesName := by
    cases h with
    | named head tail => simpa [head, continuesName_of_isAlpha head] using tail
    | _ => decide
  simp only [Bool.and_eq_true, Option.any_eq_true, List.all_eq_true] at hall
  obtain ⟨⟨c, hhead, hc⟩, hname⟩ := hall
  obtain ⟨name, hoperator⟩ := List.head?_eq_some_iff.mp hhead
  refine ⟨c, name, hoperator, hc, fun d hd => hname d ?_⟩
  rw [hoperator]
  exact List.mem_cons_of_mem c hd

/-- The operator of a comparison can be written in its named form, whatever stands behind
it. -/
theorem Spelling.read?_namedForm (h : Spelling raw operator) (rest : List Char) :
    read? (namedForm operator ++ rest) = some ((namedForm operator).length, operator) := by
  obtain ⟨c, name, hoperator, hc, hname⟩ := h.exists_name
  have hread := read?_named hc hname rest
  rw [← hoperator, String.ofList_toList] at hread
  simpa [namedForm] using hread

theorem follows_iff_exists : follows cs = true ↔ ∃ raw rest, cs = raw ++ rest ∧ Spelled raw := by
  rw [follows, Option.isSome_iff_exists]
  constructor
  · rintro ⟨⟨n, operator⟩, h⟩
    obtain ⟨raw, rest, hcs, hspelling⟩ := spelling_of_read? h
    exact ⟨raw, rest, hcs, operator, hspelling⟩
  · rintro ⟨raw, rest, rfl, h⟩
    obtain ⟨raw', rest', heq, ⟨operator, hspelling⟩, hlongest⟩ := exists_longest raw rest h
    exact ⟨_, heq ▸ read?_append hspelling hlongest⟩

/-- Whether a comparison follows shows in the first two characters. -/
theorem follows_iff : follows cs = true ↔
    cs.head? = some '=' ∨ cs.head? = some '<' ∨ cs.head? = some '>' ∨ ['!', '='] <+: cs := by
  rw [follows_iff_exists]
  constructor
  · rintro ⟨raw, rest, rfl, operator, hspelling⟩
    cases hspelling <;> simp
  · rintro (h | h | h | ⟨rest, rfl⟩)
    · obtain ⟨rest, rfl⟩ := List.head?_eq_some_iff.mp h
      exact ⟨['='], rest, rfl, "eq", .equal⟩
    · obtain ⟨rest, rfl⟩ := List.head?_eq_some_iff.mp h
      exact ⟨['<'], rest, rfl, "lt", .less⟩
    · obtain ⟨rest, rfl⟩ := List.head?_eq_some_iff.mp h
      exact ⟨['>'], rest, rfl, "gt", .greater⟩
    · exact ⟨['!', '='], rest, rfl, "ne", .notEqual⟩

/-- What opens like a comparison is none only if it is a `!` without its `=`. -/
theorem read?_eq_none_iff {c : Char} (hopens : opens c = true) :
    read? (c :: cs) = none ↔ c = '!' ∧ cs.head? ≠ some '=' := by
  have hfollows : read? (c :: cs) = none ↔ ¬ follows (c :: cs) = true := by simp [follows]
  have hequal : ['!', '='] <+: '!' :: cs ↔ cs.head? = some '=' := by
    cases cs <;> simp [List.cons_prefix_cons, eq_comm]
  rw [hfollows, follows_iff]
  simp only [opens, Bool.or_eq_true, decide_eq_true_eq] at hopens
  rcases hopens with ((rfl | rfl) | rfl) | rfl
  · simp
  · simp [hequal]
  · simp
  · simp

end ResourceQuery.Comparison

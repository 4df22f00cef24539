/-
Decision lists.

Some answers are laid down as a list of rules of which the first that applies counts.  A
rule says where it applies and what the answer is there; that the rules in front of it do
not apply is for the list to say, so no rule repeats it.
-/

namespace ResourceQuery

/-- A rule of a decision list. -/
structure Rule (α : Type) where
  applies : Prop
  /-- What the rule says of the answer. -/
  gives : α → Prop

/-- The first rule that applies gives the answer. -/
inductive Decides {α : Type} : List (Rule α) → α → Prop
  | here {rule : Rule α} {rules : List (Rule α)} {answer : α} (applies : rule.applies)
      (gives : rule.gives answer) : Decides (rule :: rules) answer
  | later {rule : Rule α} {rules : List (Rule α)} {answer : α} (passed : ¬ rule.applies)
      (rest : Decides rules answer) : Decides (rule :: rules) answer

/-- A decision list decides as its first rule says, where that applies, and as the rules
behind it say, where it does not. -/
theorem Decides.cons {α : Type} {rule : Rule α} {rules : List (Rule α)} {answer : α}
    (gives : rule.applies → rule.gives answer) (rest : ¬ rule.applies → Decides rules answer) :
    Decides (rule :: rules) answer := by
  by_cases happlies : rule.applies
  · exact .here happlies (gives happlies)
  · exact .later happlies (rest happlies)

/-- The rule that decides is one of the list, and applies. -/
theorem Decides.exists_mem {α : Type} {rules : List (Rule α)} {answer : α}
    (h : Decides rules answer) : ∃ rule ∈ rules, rule.applies ∧ rule.gives answer := by
  induction h with
  | here applies gives => exact ⟨_, List.mem_cons_self, applies, gives⟩
  | later _ _ ih =>
      obtain ⟨rule, hmem, hrule⟩ := ih
      exact ⟨rule, List.mem_cons_of_mem _ hmem, hrule⟩

/-- A check that can fail decides where it fails, and leaves the rest to what is done with
what it finds. -/
theorem Decides.bind {ε α β : Type} {x : Except ε α} {f : α → Except ε β}
    {rule : Rule (Except ε β)} {rules : List (Rule (Except ε β))}
    (fails : ∀ e, x = .error e → rule.applies ∧ rule.gives (.error e))
    (finds : ∀ a, x = .ok a → ¬ rule.applies ∧ Decides rules (f a)) :
    Decides (rule :: rules) (x >>= f) := by
  cases x with
  | error e =>
      obtain ⟨applies, gives⟩ := fails e rfl
      exact .here applies gives
  | ok a =>
      obtain ⟨passed, rest⟩ := finds a rfl
      exact .later passed rest

end ResourceQuery

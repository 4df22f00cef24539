/-
How the open parentheses nest.

The machine keeps the open parentheses, innermost first, and looks at the innermost alone.
What the others can be is laid down here.  From the outermost inwards there are groups, then
the argument list of an operator with argument lists and plain lists inside it to any depth,
and then the list behind a comparison; each of the three may be missing (`Layered`).

That is an invariant of a single move, but not on its own: what a parenthesis opens is decided
by the context, so a move keeps the shape because the context agrees with the innermost open
parenthesis (`Coherent`), and both are carried along a run together.

The machine may be offered any token in any role, also in one that no token of its kind plays.
`offerAll` is the machine behind a sequence of offers, whether it takes them or refuses them.
What it has taken leads it there by itself (`acceptAll_taken`), so what holds behind every run
holds behind every sequence of offers.
-/
import ResourceQuery.Proofs.Grammar.Enclosure

namespace ResourceQuery

open Grammar

/-! ### Tokens as they are offered -/

/-- What a token does beyond its kind. -/
inductive Role
  | plain
  /-- Text with a comparison directly behind it. -/
  | field
  /-- An operator that stands for a comparison. -/
  | comparison
  deriving DecidableEq, Repr

/-- Whether a token of a kind can play a role. -/
def Role.suits : Role → Kind → Bool
  | plain, _ => true
  | field, kind => kind = .string
  | comparison, kind => kind = .operator

/-- A token as it is offered to the machine. -/
structure Offer where
  kind : Kind
  role : Role
  deriving DecidableEq, Repr

/-- What the grammar sees of an offer. -/
def Offer.symbol : Offer → Symbol
  | ⟨.string, .field⟩ => .field
  | ⟨.operator, .comparison⟩ => .comparison
  | ⟨kind, _⟩ => .plain kind

/-- The offer that a symbol is. -/
def Symbol.offer : Symbol → Offer
  | .plain kind => ⟨kind, .plain⟩
  | .field => ⟨.string, .field⟩
  | .comparison => ⟨.operator, .comparison⟩

/-- How many parentheses are open behind some tokens, if `depth` are open in front of them.
A closing parenthesis that closes nothing does not count. -/
def unclosed : Nat → List Symbol → Nat
  | depth, [] => depth
  | depth, .plain .openParenthesis :: w => unclosed (depth + 1) w
  | depth, .plain .closeParenthesis :: w => unclosed (depth - 1) w
  | depth, _ :: w => unclosed depth w

namespace Machine

/-- The machine behind an offer that it takes.  A token in a role that its kind does not play
is refused, but for a sign under a cast, where the role is not looked at. -/
def take? (m : Machine) (o : Offer) : Option Machine :=
  if o.role.suits o.kind || (m.context = .afterCast && (o.kind = .plus || o.kind = .minus)) then
    m.accept o.symbol
  else none

/-- The machine behind an offer, whether it takes it or refuses it. -/
def offer (m : Machine) (o : Offer) : Machine :=
  (m.take? o).getD m

/-- The machine behind a sequence of offers. -/
def offerAll (m : Machine) (offers : List Offer) : Machine :=
  offers.foldl offer m

/-- What the machine takes of a sequence of offers. -/
def taken (m : Machine) : List Offer → List Symbol
  | [] => []
  | o :: offers =>
    match m.take? o with
    | some next => o.symbol :: next.taken offers
    | none => m.taken offers

variable {m n : Machine} {s : Symbol} {fs : List Frame} {w : Word} {o : Offer}

theorem accept_of_take? (h : m.take? o = some n) : m.accept o.symbol = some n := by
  unfold take? at h
  split at h
  · exact h
  · cases h

/-- A symbol is offered in a role that its kind plays, and taken where it is accepted. -/
theorem take?_offer (m : Machine) (s : Symbol) : m.take? s.offer = m.accept s := by
  have hsuits : s.offer.role.suits s.offer.kind = true := by
    cases s <;> rfl
  have hsymbol : s.offer.symbol = s := by
    cases s with
    | plain kind => cases kind <;> rfl
    | field => rfl
    | comparison => rfl
  rw [take?, hsuits, hsymbol, Bool.true_or, if_pos rfl]

/-- An offer that is refused leaves no trace: what is taken leads to the same machine. -/
theorem acceptAll_taken (m : Machine) (offers : List Offer) :
    m.acceptAll (m.taken offers) = some (m.offerAll offers) := by
  induction offers generalizing m with
  | nil => rfl
  | cons o offers ih =>
      have hstep : m.offerAll (o :: offers) = (m.offer o).offerAll offers := rfl
      rw [hstep, offer]
      cases htake : m.take? o with
      | some next =>
          have htaken : m.taken (o :: offers) = o.symbol :: next.taken offers := by
            simp [taken, htake]
          have hmove := move_of_accept (accept_of_take? htake)
          rw [htaken, acceptAll_cons_of_move hmove]
          exact ih next
      | none =>
          have htaken : m.taken (o :: offers) = m.taken offers := by
            simp [taken, htake]
          rw [htaken]
          exact ih m

/-! ### The shape of what is open -/

/-- Groups, and argument lists and lists inside them, innermost first.  A list opens only in
an argument list or in another list. -/
inductive Listed : List Frame → Prop
  | groups (k : Nat) : Listed (List.replicate k .group)
  | call {fs : List Frame} (below : Listed fs) : Listed (.arguments :: fs)
  | nested {fs : List Frame} (below : Listed fs) (inside : afterValue fs = .arguments) :
      Listed (.nested :: fs)

/-- What can be open, innermost first. -/
inductive Stacked : List Frame → Prop
  | lists {fs : List Frame} (lists : Listed fs) : Stacked fs
  | array {fs : List Frame} (lists : Listed fs) : Stacked (.array :: fs)

theorem Stacked.tail (h : Stacked fs) : Stacked fs.tail := by
  cases h with
  | array lists => exact .lists lists
  | lists lists =>
      cases lists with
      | groups k =>
          rw [List.tail_replicate]
          exact .lists (.groups _)
      | call below => exact .lists below
      | nested below _ => exact .lists below

/-- Without an array on top there are only lists and groups. -/
theorem Stacked.listed (h : Stacked fs) (hvalue : afterValue fs ≠ .array) : Listed fs := by
  cases h with
  | lists lists => exact lists
  | array => exact absurd rfl hvalue

/-- Where a value is an expression there are only groups. -/
theorem Listed.exists_groups (h : Listed fs) (hvalue : afterValue fs = .afterExpression) :
    ∃ k, fs = List.replicate k .group := by
  cases h with
  | groups k => exact ⟨k, rfl⟩
  | call => cases hvalue
  | nested => cases hvalue

/-- A move keeps the shape.  What it opens it opens in view of the context, which is why the
context has to agree with what is open. -/
theorem Stacked.move (hm : m.Coherent) (h : Stacked m.frames) (hmove : Move m s n) :
    Stacked n.frames := by
  cases hmove with
  | openGroup =>
      have hvalue : afterValue _ = .afterExpression := hm
      have hlisted := h.listed (by rw [hvalue]; exact nofun)
      obtain ⟨k, hgroups⟩ := hlisted.exists_groups hvalue
      obtain rfl := hgroups
      exact .lists (.groups (k + 1))
  | openCall => exact .lists (.call (h.listed hm))
  | openNested =>
      have hvalue : afterValue _ = .arguments := hm
      have hlisted := h.listed (by rw [hvalue]; exact nofun)
      exact .lists (.nested hlisted hvalue)
  | openArray => exact .array (h.listed hm)
  | close => exact h.tail
  | _ => exact h

theorem Stacked.acceptAll (hm : m.Coherent) (h : Stacked m.frames)
    (hrun : m.acceptAll w = some n) : Stacked n.frames := by
  induction w generalizing m with
  | nil =>
      obtain rfl := Option.some.inj hrun
      exact h
  | cons s w ih =>
      obtain ⟨k, hmove, hrest⟩ := acceptAll_cons_eq_some_iff.mp hrun
      exact ih (hm.move hmove) (h.move hm hmove) hrest

/-- The argument list of an operator, and argument lists and lists inside it, from the
outermost inwards. -/
def OpensCall (lists : List Frame) : Prop :=
  ∃ inner, lists = .arguments :: inner ∧ ∀ f ∈ inner, f = .arguments ∨ f = .nested

/-- What is open, from the outermost inwards: groups, then the argument list of an operator
with what is inside it, then the list behind a comparison. -/
def Layered (fs : List Frame) : Prop :=
  ∃ (groups : Nat) (lists top : List Frame),
    fs.reverse = List.replicate groups .group ++ (lists ++ top) ∧
      (lists = [] ∨ OpensCall lists) ∧ (top = [] ∨ top = [.array])

theorem OpensCall.append {lists : List Frame} {f : Frame} (h : OpensCall lists)
    (hf : f = .arguments ∨ f = .nested) : OpensCall (lists ++ [f]) := by
  obtain ⟨inner, rfl, hinner⟩ := h
  refine ⟨inner ++ [f], rfl, ?_⟩
  intro g hg
  rcases List.mem_append.mp hg with hg | hg
  · exact hinner g hg
  · exact List.mem_singleton.mp hg ▸ hf

theorem Listed.exists_lists (h : Listed fs) :
    ∃ groups lists, fs.reverse = List.replicate groups .group ++ lists ∧
      (lists = [] ∨ OpensCall lists) := by
  induction h with
  | groups k => exact ⟨k, [], by simp, .inl rfl⟩
  | @call fs _ ih =>
      obtain ⟨k, lists, hfs, hlists⟩ := ih
      refine ⟨k, lists ++ [.arguments], by simp [hfs], .inr ?_⟩
      rcases hlists with rfl | hlists
      · exact ⟨[], rfl, by simp⟩
      · exact hlists.append (.inl rfl)
  | @nested fs _ inside ih =>
      obtain ⟨k, lists, hfs, hlists⟩ := ih
      refine ⟨k, lists ++ [.nested], by simp [hfs], .inr ?_⟩
      rcases hlists with rfl | hlists
      · -- Only groups are open, and no list opens there.
        have hgroups : fs = List.replicate k .group := by
          rw [← List.reverse_reverse fs, hfs, List.append_nil, List.reverse_replicate]
        cases k <;> · rw [hgroups] at inside; cases inside
      · exact hlists.append (.inr rfl)

theorem Stacked.layered (h : Stacked fs) : Layered fs := by
  cases h with
  | lists lists =>
      obtain ⟨k, within, hfs, hwithin⟩ := lists.exists_lists
      exact ⟨k, within, [], by simp [hfs], hwithin, .inl rfl⟩
  | array lists =>
      obtain ⟨k, within, hfs, hwithin⟩ := lists.exists_lists
      exact ⟨k, within, [.array], by simp [hfs], hwithin, .inr rfl⟩

/-! ### How much is open -/

theorem unclosed_of_ne (hopen : s.kind ≠ .openParenthesis) (hclose : s.kind ≠ .closeParenthesis)
    (depth : Nat) (w : Word) : unclosed depth (s :: w) = unclosed depth w := by
  cases s with
  | field => rfl
  | comparison => rfl
  | plain kind => cases kind <;> first | rfl | contradiction

/-- As many parentheses are open as the tokens leave open. -/
theorem length_frames_of_acceptAll (h : m.acceptAll w = some n) :
    n.frames.length = unclosed m.frames.length w := by
  induction w generalizing m with
  | nil =>
      obtain rfl := Option.some.inj h
      rfl
  | cons s w ih =>
      obtain ⟨k, hmove, hrest⟩ := acceptAll_cons_eq_some_iff.mp h
      rw [ih hrest]
      rcases hmove.frames with ⟨rfl, f, hframes⟩ | ⟨rfl, hframes⟩ | ⟨⟨hopen, hclose⟩, hframes⟩
      · rw [hframes, List.length_cons, unclosed]
      · rw [hframes, List.length_tail, unclosed]
      · rw [hframes, unclosed_of_ne hopen hclose]

/-! ### What every sequence of offers keeps -/

theorem Move.context_of_openParenthesis (h : Move m (.plain .openParenthesis) n) :
    m.context = .expressionStart ∨ m.context = .afterOperator ∨ m.context = .afterComparison ∨
      m.context = .arguments := by
  cases h with
  | openGroup => exact .inl rfl
  | openCall => exact .inr (.inl rfl)
  | openArray => exact .inr (.inr (.inl rfl))
  | openNested => exact .inr (.inr (.inr rfl))
  | connect link => rcases link with h | h <;> cases h
  | separate link => rcases link with h | h <;> cases h
  | sign sign => rcases sign with h | h <;> cases h
  | signCast sign => rcases sign with h | h <;> cases h
  | scalar scalar => cases scalar

/-- What holds of a machine that has taken some of the tokens offered to it. -/
structure WellNested (m : Machine) (taken : Word) : Prop where
  /-- What is open has its shape. -/
  layered : Layered m.frames
  /-- Around an expression nothing is open, or a group is the innermost. -/
  outside : m.context = .expressionStart ∨ m.context = .afterExpression →
    m.frames = [] ∨ ∃ fs, m.frames = .group :: fs
  /-- Among arguments an argument list is the innermost, or a list inside one. -/
  inside : m.context = .arguments ∨ m.context = .afterSign →
    ∃ f fs, m.frames = f :: fs ∧ (f = .arguments ∨ f = .nested)
  /-- In an array an array is the innermost. -/
  array : m.context = .array → ∃ fs, m.frames = .array :: fs
  /-- Nothing is called and nothing compared in an array. -/
  free : m.context = .afterOperator ∨ m.context = .afterField ∨ m.context = .afterComparison →
    ∀ fs, m.frames ≠ .array :: fs
  /-- As many parentheses are open as have been taken and not been closed. -/
  depth : m.frames.length = unclosed 0 taken
  /-- What has been taken leads to the machine by itself. -/
  traceless : start.acceptAll taken = some m
  /-- An offer that is refused leaves the machine as it is. -/
  refused : ∀ o, m.take? o = none → m.offer o = m
  /-- A symbol is taken where it is accepted. -/
  symbols : ∀ s : Symbol, m.take? s.offer = m.accept s
  /-- A parenthesis that opens neither a group nor an argument list nor an array stands among
  arguments. -/
  opens : ∀ o next, o.kind = .openParenthesis → m.take? o = some next →
    m.context ≠ .expressionStart → m.context ≠ .afterOperator → m.context ≠ .afterComparison →
      m.context = .arguments

/--
**Whatever the machine is offered, its open parentheses are nested as the grammar nests them**,
its context agrees with the innermost one, and there are as many as it has taken and not seen
closed.
-/
theorem wellNested_of_offers (offers : List Offer) :
    WellNested (start.offerAll offers) (start.taken offers) := by
  have hrun := acceptAll_taken start offers
  have hcoherent : (start.offerAll offers).Coherent := coherent_start.acceptAll hrun
  have hstacked : Stacked (start.offerAll offers).frames :=
    Stacked.acceptAll coherent_start (.lists (.groups 0)) hrun
  generalize start.offerAll offers = m at hrun hcoherent hstacked
  obtain ⟨c, fs⟩ := m
  refine
    { layered := hstacked.layered
      outside := ?_
      inside := ?_
      array := ?_
      free := ?_
      depth := length_frames_of_acceptAll hrun
      traceless := hrun
      refused := ?_
      symbols := take?_offer _
      opens := ?_ }
  · rintro (rfl | rfl) <;> exact afterValue_eq_afterExpression_iff.mp hcoherent
  · rintro (rfl | rfl) <;> exact afterValue_eq_arguments_iff.mp hcoherent
  · rintro rfl
    exact afterValue_eq_array_iff.mp hcoherent
  · intro hcontext gs hfs
    have hvalue : afterValue fs = .array := afterValue_eq_array_iff.mpr ⟨gs, hfs⟩
    rcases hcontext with rfl | rfl | rfl <;> exact hcoherent hvalue
  · intro o hrefused
    rw [offer, hrefused, Option.getD_none]
  · rintro ⟨kind, role⟩ next rfl htake hstart hcall hcompare
    have hmove : Move ⟨c, fs⟩ (.plain .openParenthesis) next :=
      move_of_accept (accept_of_take? htake)
    rcases hmove.context_of_openParenthesis with h | h | h | h
    · exact absurd h hstart
    · exact absurd h hcall
    · exact absurd h hcompare
    · exact h

end Machine

end ResourceQuery

/-
Where a comparison stands makes no difference to its value, but for a signed cast.

Behind a comparison the machine reads one value and is then back at the list the
comparison stands in.  The words that take it there are the values of the grammar,
and the grammar does not mention what is open around a value.  There is one
exception: a sign under a type cast is admitted by looking at the innermost open
parenthesis, so `string:+abc` is a value inside an argument list and nowhere else.

A value ends where the machine is back for the first time.  `Arrives` follows a
word up to there, one move at a time, and both directions are inductions on it.
-/
import ResourceQuery.Proofs.Grammar.Viability

namespace ResourceQuery

open Grammar

namespace Machine

variable {m n t : Machine} {fs : List Frame} {w : Word}

/-- The machine, once what stands in its place is read. -/
def finished (m : Machine) : Machine :=
  ⟨afterValue m.frames, m.frames⟩

/-- The machine reads `w` as one complete value: it accepts all of `w`, and the end
of `w` is the first place where the open parentheses are those in front of `w` and
the context is the one behind a value. -/
def ReadsValue (m : Machine) (w : Word) : Prop :=
  w ≠ [] ∧ m.acceptAll w = some m.finished ∧
    ∀ u v : Word, w = u ++ v → u ≠ [] → v ≠ [] → m.acceptAll u ≠ some m.finished

/-- Some word leads the machine from the start of a query to here. -/
def Reachable (m : Machine) : Prop :=
  ∃ w, start.acceptAll w = some m

/-! ### The first arrival -/

/-- `w` leads from a machine to `t`, and arrives there for the first time. -/
inductive Arrives (t : Machine) : Machine → Word → Prop
  | last {m : Machine} {s : Symbol} (move : Move m s t) : Arrives t m [s]
  | step {m n : Machine} {s : Symbol} {w : Word} (move : Move m s n) (before : n ≠ t)
      (rest : Arrives t n w) : Arrives t m (s :: w)

theorem Arrives.ne_nil (h : Arrives t m w) : w ≠ [] := by
  cases h <;> exact List.cons_ne_nil _ _

theorem Arrives.acceptAll (h : Arrives t m w) : m.acceptAll w = some t := by
  induction h with
  | last move => exact acceptAll_singleton move
  | step move _ _ ih => rw [acceptAll_cons_of_move move, ih]

theorem Arrives.not_before (h : Arrives t m w) :
    ∀ u v : Word, w = u ++ v → u ≠ [] → v ≠ [] → m.acceptAll u ≠ some t := by
  induction h with
  | last move =>
      intro u v huv hu hv
      rcases List.append_eq_singleton_iff.mp huv.symm with ⟨rfl, -⟩ | ⟨-, rfl⟩
      · exact absurd rfl hu
      · exact absurd rfl hv
  | step move before _ ih =>
      intro u v huv hu hv
      obtain ⟨s, u, rfl⟩ := List.exists_cons_of_ne_nil hu
      obtain ⟨rfl, rfl⟩ := List.cons.inj huv
      rw [acceptAll_cons_of_move move]
      by_cases hnil : u = []
      · subst hnil
        simpa using before
      · exact ih u v rfl hnil hv

theorem arrives_of_acceptAll (hw : w ≠ []) (h : m.acceptAll w = some t)
    (hfirst : ∀ u v : Word, w = u ++ v → u ≠ [] → v ≠ [] → m.acceptAll u ≠ some t) :
    Arrives t m w := by
  induction w generalizing m with
  | nil => exact absurd rfl hw
  | cons s w ih =>
      obtain ⟨n, hmove, hrest⟩ := acceptAll_cons_eq_some_iff.mp h
      by_cases hnil : w = []
      · subst hnil
        obtain rfl := Option.some.inj hrest
        exact .last hmove
      · have hbefore : n ≠ t := by
          rintro rfl
          exact hfirst [s] w rfl (List.cons_ne_nil _ _) hnil (acceptAll_singleton hmove)
        refine .step hmove hbefore (ih hnil hrest ?_)
        rintro u v rfl _ hv hu'
        refine hfirst (s :: u) v rfl (List.cons_ne_nil _ _) hv ?_
        rw [acceptAll_cons_of_move hmove, hu']

theorem readsValue_iff_arrives : m.ReadsValue w ↔ Arrives m.finished m w :=
  ⟨fun ⟨hw, h, hfirst⟩ => arrives_of_acceptAll hw h hfirst,
    fun h => ⟨h.ne_nil, h.acceptAll, h.not_before⟩⟩

/-! ### From a run to the grammar -/

theorem Move.of_afterType {s : Symbol} (h : Move ⟨.afterType, fs⟩ s n) :
    s = .plain .colon ∧ n = ⟨.afterCast, fs⟩ := by
  cases h with
  | colon => exact ⟨rfl, rfl⟩
  | field start | operator start => rcases start with hc | hc <;> cases hc
  | close between => rcases between with (hc | hc) | hc <;> cases hc
  | comma between => rcases between with hc | hc <;> cases hc
  | scalar _ start => rcases start with (hc | hc | hc) | hc <;> cases hc
  | typeName start => rcases start with hc | hc | hc <;> cases hc

theorem Move.of_afterCast {s : Symbol} (h : Move ⟨.afterCast, fs⟩ s n) :
    (Scalar s ∧ n = ⟨afterValue fs, fs⟩) ∨
      (Sign s ∧ afterValue fs = .arguments ∧ n = ⟨.afterSign, fs⟩) := by
  cases h with
  | scalar scalar => exact .inl ⟨scalar, rfl⟩
  | signCast sign inside => exact .inr ⟨sign, inside, rfl⟩
  | field start | operator start => rcases start with hc | hc <;> cases hc
  | close between => rcases between with (hc | hc) | hc <;> cases hc
  | comma between => rcases between with hc | hc <;> cases hc
  | typeName start => rcases start with hc | hc | hc <;> cases hc

theorem Move.of_afterSign {s : Symbol} (h : Move ⟨.afterSign, fs⟩ s n) :
    s = .plain .string ∧ n = ⟨afterValue fs, fs⟩ := by
  cases h with
  | signed => exact ⟨rfl, rfl⟩
  | field start | operator start => rcases start with hc | hc <;> cases hc
  | close between => rcases between with (hc | hc) | hc <;> cases hc
  | comma between => rcases between with hc | hc <;> cases hc
  | scalar _ start => rcases start with (hc | hc | hc) | hc <;> cases hc
  | typeName start => rcases start with hc | hc | hc <;> cases hc

theorem Move.of_array {s : Symbol} (h : Move ⟨.array, .array :: fs⟩ s n) :
    (s = .plain .closeParenthesis ∧ n = ⟨afterValue fs, fs⟩) ∨
      (Item [s] ∧ n = ⟨.array, .array :: fs⟩) ∨
      (s = .plain .typeName ∧ n = ⟨.afterType, .array :: fs⟩) := by
  cases h with
  | close => exact .inl ⟨rfl, rfl⟩
  | scalar scalar => exact .inr (.inl ⟨.scalar scalar, rfl⟩)
  | comma => exact .inr (.inl ⟨.comma, rfl⟩)
  | typeName => exact .inr (.inr ⟨rfl, rfl⟩)
  | field start | operator start => rcases start with hc | hc <;> cases hc

theorem Move.of_afterComparison {s : Symbol} (h : Move ⟨.afterComparison, fs⟩ s n) :
    (Scalar s ∧ n = ⟨afterValue fs, fs⟩) ∨
      (s = .plain .typeName ∧ n = ⟨.afterType, fs⟩) ∨
      (s = .plain .openParenthesis ∧ n = ⟨.array, .array :: fs⟩) := by
  cases h with
  | scalar scalar => exact .inl ⟨scalar, rfl⟩
  | typeName => exact .inr (.inl ⟨rfl, rfl⟩)
  | openArray => exact .inr (.inr ⟨rfl, rfl⟩)
  | field start | operator start => rcases start with hc | hc <;> cases hc
  | close between => rcases between with (hc | hc) | hc <;> cases hc
  | comma between => rcases between with hc | hc <;> cases hc

theorem frames_ne {c d : Context} {f : Frame} : (⟨c, f :: fs⟩ : Machine) ≠ ⟨d, fs⟩ := by
  intro h
  exact absurd (congrArg (fun m : Machine => m.frames.length) h) (by simp)

/-- Nothing that is still being read leaves the context of a finished value. -/
theorem context_ne {c : Context} (hc : ¬ (InList c ∨ c = .afterExpression)) :
    (⟨c, fs⟩ : Machine) ≠ ⟨afterValue fs, fs⟩ := by
  intro h
  have hctx : c = afterValue fs := congrArg Machine.context h
  exact hc (hctx ▸ between_afterValue fs)

/-- In a list behind a comparison, only the closing parenthesis leads back.  Inside
a cast, the literal comes first. -/
theorem items_of_arrives (h : Arrives ⟨afterValue fs, fs⟩ m w) (hfs : m.frames = .array :: fs)
    (hc : m.context = .array ∨ m.context = .afterType ∨ m.context = .afterCast) :
    ∃ u v, Finishes .array m.context u ∧ Many Item v ∧
      w = u ++ (v ++ [.plain .closeParenthesis]) := by
  induction h with
  | @last m s move =>
      obtain ⟨c, _⟩ := m
      obtain rfl : _ = Frame.array :: fs := hfs
      rcases hc with rfl | rfl | rfl
      · rcases move.of_array with ⟨rfl, -⟩ | ⟨-, hback⟩ | ⟨-, hback⟩
        · exact ⟨[], [], .betweenItems rfl, .nil, rfl⟩
        · exact absurd hback.symm frames_ne
        · exact absurd hback.symm frames_ne
      · exact absurd move.of_afterType.2.symm frames_ne
      · rcases move.of_afterCast with ⟨-, hback⟩ | ⟨-, inside, -⟩
        · exact absurd hback.symm frames_ne
        · cases inside
  | @step m n s w move before _ ih =>
      obtain ⟨c, _⟩ := m
      obtain rfl : _ = Frame.array :: fs := hfs
      rcases hc with rfl | rfl | rfl
      · rcases move.of_array with ⟨-, hback⟩ | ⟨item, rfl⟩ | ⟨rfl, rfl⟩
        · exact absurd hback before
        · obtain ⟨u, v, finish, items, rfl⟩ := ih rfl (.inl rfl)
          cases finish
          exact ⟨[], [s] ++ v, .betweenItems rfl, .cons item items, rfl⟩
        · obtain ⟨u, v, finish, items, rfl⟩ := ih rfl (.inr (.inl rfl))
          cases finish with
          | cast literal =>
              cases literal with
              | scalar scalar =>
                  exact ⟨[], _, .betweenItems rfl, .cons (.cast scalar) items, rfl⟩
              | signedScalar inside => cases inside
      · obtain ⟨rfl, rfl⟩ := move.of_afterType
        obtain ⟨u, v, finish, items, rfl⟩ := ih rfl (.inr (.inr rfl))
        exact ⟨_, v, .cast finish, items, rfl⟩
      · rcases move.of_afterCast with ⟨scalar, rfl⟩ | ⟨-, inside, -⟩
        · obtain ⟨u, v, finish, items, rfl⟩ := ih rfl (.inl rfl)
          cases finish
          exact ⟨[s], v, .scalar scalar, items, rfl⟩
        · cases inside

/-- Behind the name of a type, a literal leads back, or a sign and text where a sign
is admitted. -/
theorem cast_of_arrives (h : Arrives ⟨afterValue fs, fs⟩ ⟨.afterType, fs⟩ w) :
    Value (.plain .typeName :: w) ∨
      (SignedCast (.plain .typeName :: w) ∧ afterValue fs = .arguments) := by
  cases h with
  | last move => exact absurd move.of_afterType.2.symm (context_ne (by simp [InList]))
  | step move _ rest =>
      obtain ⟨rfl, rfl⟩ := move.of_afterType
      cases rest with
      | last move =>
          rcases move.of_afterCast with ⟨scalar, -⟩ | ⟨-, -, hback⟩
          · exact .inl (.cast scalar)
          · exact absurd hback.symm (context_ne (by simp [InList]))
      | step move before rest =>
          rcases move.of_afterCast with ⟨-, hback⟩ | ⟨sign, inside, rfl⟩
          · exact absurd hback before
          · cases rest with
            | last move =>
                obtain ⟨rfl, -⟩ := move.of_afterSign
                exact .inr ⟨⟨sign⟩, inside⟩
            | step move before _ => exact absurd move.of_afterSign.2 before

/-! ### From the grammar to a run -/

theorem arrives_items (h : Many Item w) :
    Arrives ⟨afterValue fs, fs⟩ ⟨.array, .array :: fs⟩ (w ++ [.plain .closeParenthesis]) := by
  induction h with
  | nil => exact .last (.close (.inl (.inr rfl)))
  | cons head _ ih =>
      cases head with
      | scalar scalar => exact .step (.scalar scalar (.inl (.inr (.inr rfl)))) frames_ne ih
      | cast scalar =>
          exact .step (.typeName (.inr (.inr rfl))) frames_ne
            (.step .colon frames_ne (.step (.scalar scalar (.inr rfl)) frames_ne ih))
      | comma => exact .step (.comma (.inr rfl)) frames_ne ih

theorem arrives_value (h : Value w) :
    Arrives ⟨afterValue fs, fs⟩ ⟨.afterComparison, fs⟩ w := by
  cases h with
  | scalar scalar => exact .last (.scalar scalar (.inl (.inl rfl)))
  | cast scalar =>
      exact .step (.typeName (.inl rfl)) (context_ne (by simp [InList]))
        (.step .colon (context_ne (by simp [InList])) (.last (.scalar scalar (.inr rfl))))
  | list items => exact .step .openArray frames_ne (arrives_items items)

theorem arrives_signedCast (h : SignedCast w) (hfs : afterValue fs = .arguments) :
    Arrives ⟨afterValue fs, fs⟩ ⟨.afterComparison, fs⟩ w := by
  obtain ⟨sign⟩ := h
  refine .step (.typeName (.inl rfl)) (context_ne (by simp [InList])) ?_
  refine .step .colon (context_ne (by simp [InList])) ?_
  exact .step (.signCast sign hfs) (context_ne (by simp [InList])) (.last .signed)

/-! ### One value, wherever the comparison stands -/

theorem readsValue_iff_value (fs : List Frame) (w : Word) :
    ReadsValue ⟨.afterComparison, fs⟩ w ↔
      Value w ∨ (SignedCast w ∧ afterValue fs = .arguments) := by
  rw [readsValue_iff_arrives]
  constructor
  · intro h
    cases h with
    | last move =>
        rcases move.of_afterComparison with ⟨scalar, -⟩ | ⟨-, hback⟩ | ⟨-, hback⟩
        · exact .inl (.scalar scalar)
        · exact absurd hback.symm (context_ne (by simp [InList]))
        · exact absurd hback.symm frames_ne
    | step move before rest =>
        rcases move.of_afterComparison with ⟨-, hback⟩ | ⟨rfl, rfl⟩ | ⟨rfl, rfl⟩
        · exact absurd hback before
        · exact cast_of_arrives rest
        · obtain ⟨u, v, finish, items, rfl⟩ := items_of_arrives rest rfl (.inl rfl)
          cases finish
          exact .inl (.list items)
  · rintro (value | ⟨cast, hfs⟩)
    · exact arrives_value value
    · exact arrives_signedCast cast hfs

/--
**A value is the same wherever the comparison stands, but for a signed cast.**  Two
machines behind a comparison read the same words as one complete value, whatever
is open around them, except for a sign and its text under a cast: that is a value
exactly where the innermost open parenthesis is an argument list or a list inside
one.
-/
theorem readsValue_independent (f₁ f₂ : List Frame) (w : Word) :
    (¬ SignedCast w →
      (ReadsValue ⟨.afterComparison, f₁⟩ w ↔ ReadsValue ⟨.afterComparison, f₂⟩ w)) ∧
    (SignedCast w →
      (ReadsValue ⟨.afterComparison, f₁⟩ w ↔
        ∃ f fs, f₁ = f :: fs ∧ (f = .arguments ∨ f = .nested))) := by
  simp only [readsValue_iff_value]
  constructor
  · intro hcast
    simp [hcast]
  · intro hcast
    have hvalue : ¬ Value w := by
      intro h
      obtain ⟨sign⟩ := hcast
      cases h
    rw [← afterValue_eq_arguments_iff]
    simp [hcast, hvalue]

/-- A signed cast is a value behind a comparison among arguments, and none behind
the same comparison at the top of a query. -/
theorem not_readsValue_independent :
    ¬ ∀ m₁ m₂ : Machine, m₁.Reachable → m₂.Reachable →
      m₁.context = .afterComparison → m₂.context = .afterComparison →
      ∀ w, m₁.ReadsValue w ↔ m₂.ReadsValue w := by
  intro h
  have hcast : SignedCast [.plain .typeName, .plain .colon, .plain .plus, .plain .string] :=
    ⟨.inl rfl⟩
  have houter : Reachable ⟨.afterComparison, []⟩ :=
    ⟨[.field, .comparison], rfl⟩
  have hinner : Reachable ⟨.afterComparison, [.arguments]⟩ :=
    ⟨[.plain .operator, .plain .openParenthesis, .field, .comparison], rfl⟩
  have hread := (h _ _ houter hinner rfl rfl _).mpr
    ((readsValue_iff_value _ _).mpr (.inr ⟨hcast, rfl⟩))
  rcases (readsValue_iff_value _ _).mp hread with value | ⟨-, hinside⟩
  · cases value
  · cases hinside

end Machine

end ResourceQuery

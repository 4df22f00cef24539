/-
The machine inside a pair of parentheses.

A query whose parentheses match may stand in parentheses itself, as a group or as the
arguments of a call.  What the machine does there it does as it would outside, with one
more parenthesis open below all others: the machine inside is an image of the machine
outside (`inside`).  In a group nothing else is different.  In a call expressions stand as
arguments, and what would open a group opens a list, so the two contexts of expressions
become the one of arguments, and a group becomes a list.

One kind of move has no image: a closing parenthesis that closes nothing would close the
enclosure.  `depthBehind` counts the open parentheses as a reader of the tokens does, and
where it finds them matched the machine never makes such a move.
-/
import ResourceQuery.Proofs.Grammar.Moves

namespace ResourceQuery

/-! ### Parentheses that match -/

/-- How many parentheses are open behind some tokens, if `depth` are open in front of them
and none is closed that is not open. -/
def depthBehind : Nat → List Kind → Option Nat
  | depth, [] => some depth
  | depth, .openParenthesis :: kinds => depthBehind (depth + 1) kinds
  | 0, .closeParenthesis :: _ => none
  | depth + 1, .closeParenthesis :: kinds => depthBehind depth kinds
  | depth, _ :: kinds => depthBehind depth kinds

/-- Every opening parenthesis is matched by a closing one behind it, and every closing
one matches. -/
def Balanced (kinds : List Kind) : Prop :=
  depthBehind 0 kinds = some 0

instance (kinds : List Kind) : Decidable (Balanced kinds) :=
  inferInstanceAs (Decidable (_ = _))

variable {depth last k : Nat} {kind : Kind} {kinds more : List Kind}

theorem depthBehind_of_ne (hopen : kind ≠ .openParenthesis) (hclose : kind ≠ .closeParenthesis) :
    depthBehind depth (kind :: kinds) = depthBehind depth kinds := by
  cases kind <;> first | rfl | contradiction

theorem depthBehind_append :
    depthBehind depth (kinds ++ more) =
      (depthBehind depth kinds).bind fun last => depthBehind last more := by
  induction kinds generalizing depth with
  | nil => rfl
  | cons kind kinds ih =>
      by_cases hopen : kind = .openParenthesis
      · subst hopen
        exact ih
      · by_cases hclose : kind = .closeParenthesis
        · subst hclose
          cases depth with
          | zero => rfl
          | succ depth => exact ih
        · rw [List.cons_append, depthBehind_of_ne hopen hclose, depthBehind_of_ne hopen hclose, ih]

/-- Tokens leave open what is open around them. -/
theorem depthBehind_add (h : depthBehind depth kinds = some last) (k : Nat) :
    depthBehind (depth + k) kinds = some (last + k) := by
  induction kinds generalizing depth with
  | nil =>
      obtain rfl := Option.some.inj h
      rfl
  | cons kind kinds ih =>
      by_cases hopen : kind = .openParenthesis
      · subst hopen
        rw [depthBehind, Nat.add_right_comm]
        exact ih h
      · by_cases hclose : kind = .closeParenthesis
        · subst hclose
          cases depth with
          | zero => cases h
          | succ depth =>
              rw [Nat.succ_add]
              exact ih h
        · rw [depthBehind_of_ne hopen hclose] at h ⊢
          exact ih h

theorem Balanced.append (h : Balanced kinds) (hmore : Balanced more) :
    Balanced (kinds ++ more) := by
  rw [Balanced, depthBehind_append, show depthBehind 0 kinds = some 0 from h]
  exact hmore

/-- What is balanced may be put anywhere among balanced tokens. -/
theorem Balanced.insert (h : Balanced (kinds ++ more)) {within : List Kind}
    (hwithin : Balanced within) : Balanced (kinds ++ (within ++ more)) := by
  rw [Balanced, depthBehind_append, Option.bind_eq_some_iff] at h ⊢
  obtain ⟨depth, hkinds, hmore⟩ := h
  have hdepth : depthBehind depth within = some depth := by
    simpa using depthBehind_add hwithin depth
  refine ⟨depth, hkinds, ?_⟩
  rw [depthBehind_append, hdepth]
  exact hmore

theorem balanced_sentinel_iff : Balanced (kinds ++ [.ending]) ↔ Balanced kinds := by
  have hending : ∀ depth, depthBehind depth [.ending] = some depth := by
    intro depth
    rw [depthBehind_of_ne (by decide) (by decide), depthBehind]
  simp [Balanced, depthBehind_append, hending]

/-- What may enclose a whole query. -/
inductive Enclosure
  /-- A group. -/
  | group
  /-- The call of an operator. -/
  | call
  deriving DecidableEq, Repr

namespace Enclosure

/-- The parenthesis that the enclosure opens. -/
def frame : Enclosure → Frame
  | group => .group
  | call => .arguments

/-- What a context is inside. -/
def context : Enclosure → Context → Context
  | call, .expressionStart => .arguments
  | call, .afterExpression => .arguments
  | _, c => c

/-- What a parenthesis is inside. -/
def inner : Enclosure → Frame → Frame
  | call, .group => .nested
  | _, f => f

end Enclosure

namespace Machine

open Grammar

variable {e : Enclosure} {m n : Machine} {s : Symbol} {fs : List Frame}

/-- The machine inside an enclosure. -/
def inside (e : Enclosure) (m : Machine) : Machine :=
  ⟨e.context m.context, m.frames.map e.inner ++ [e.frame]⟩

theorem afterValue_inside (e : Enclosure) (fs : List Frame) :
    afterValue (fs.map e.inner ++ [e.frame]) = e.context (afterValue fs) := by
  cases e <;> match fs with
  | [] | .group :: _ | .arguments :: _ | .nested :: _ | .array :: _ => rfl

theorem startsTerm_context {c : Context} (h : StartsTerm c) : StartsTerm (e.context c) := by
  rcases h with rfl | rfl <;> cases e
  · exact .inl rfl
  · exact .inr rfl
  · exact .inr rfl
  · exact .inr rfl

theorem context_of_startsValue {c : Context} (h : StartsValue c) : e.context c = c := by
  rcases h with rfl | rfl | rfl <;> cases e <;> rfl

theorem between_context {c : Context} (h : InList c ∨ c = .afterExpression) :
    InList (e.context c) ∨ e.context c = .afterExpression := by
  rcases h with h | rfl
  · rw [context_of_startsValue (.inr h)]
    exact .inl h
  · cases e
    · exact .inr rfl
    · exact .inl (.inl rfl)

/-- What closes no more than is open the machine does inside as it does outside. -/
theorem Move.inside (h : Move m s n) (hclose : s = .plain .closeParenthesis → m.frames ≠ []) :
    Move (m.inside e) s (n.inside e) := by
  have hvalue : ∀ fs : List Frame, Machine.inside e ⟨afterValue fs, fs⟩ =
      ⟨afterValue (fs.map e.inner ++ [e.frame]), fs.map e.inner ++ [e.frame]⟩ := by
    intro fs
    rw [afterValue_inside, Machine.inside]
  cases h with
  | field start => cases e <;> exact .field (startsTerm_context start)
  | comparison => cases e <;> exact .comparison
  | operator start => cases e <;> exact .operator (startsTerm_context start)
  | openGroup =>
      cases e with
      | group => exact .openGroup
      | call => exact .openNested
  | openCall => cases e <;> exact .openCall
  | openNested => cases e <;> exact .openNested
  | openArray => cases e <;> exact .openArray
  | @close c fs between =>
      obtain ⟨f, fs, rfl⟩ := List.exists_cons_of_ne_nil (hclose rfl)
      have hmove : Move ⟨e.context c, e.inner f :: (fs.map e.inner ++ [e.frame])⟩
          (.plain .closeParenthesis)
          ⟨afterValue (fs.map e.inner ++ [e.frame]), fs.map e.inner ++ [e.frame]⟩ :=
        .close (between_context between)
      rw [List.tail_cons, hvalue]
      exact hmove
  | comma between =>
      have hcontext := context_of_startsValue (e := e) (.inr between)
      simp only [Machine.inside, hcontext]
      exact .comma between
  | connect link =>
      cases e with
      | group => exact .connect link
      | call => exact .separate link
  | separate link => cases e <;> exact .separate link
  | sign sign => cases e <;> exact .sign sign
  | @signCast fs _ sign within =>
      have hwithin : afterValue (fs.map e.inner ++ [e.frame]) = .arguments := by
        rw [afterValue_inside, within]
        exact context_of_startsValue (.inr (.inl rfl))
      cases e <;> exact .signCast sign hwithin
  | signed =>
      rw [hvalue]
      cases e <;> exact .signed
  | @scalar c fs _ scalar start =>
      have hstart : StartsValue (e.context c) ∨ e.context c = .afterCast := by
        rcases start with start | rfl
        · rw [context_of_startsValue start]
          exact .inl start
        · cases e <;> exact .inr rfl
      rw [hvalue]
      exact .scalar scalar hstart
  | typeName start =>
      simp only [Machine.inside, context_of_startsValue start]
      cases e <;> exact .typeName start
  | colon => cases e <;> exact .colon

theorem opened_context_ne (m : Machine) : m.opened.context ≠ .afterExpression := by
  unfold opened
  split <;> exact nofun

/-- What a move does to the open parentheses. -/
theorem Move.frames (h : Move m s n) :
    s = .plain .openParenthesis ∧ (∃ f, n.frames = f :: m.frames) ∨
      s = .plain .closeParenthesis ∧ n.frames = m.frames.tail ∨
        (s.kind ≠ .openParenthesis ∧ s.kind ≠ .closeParenthesis) ∧ n.frames = m.frames := by
  cases h with
  | openGroup => exact .inl ⟨rfl, _, rfl⟩
  | openCall => exact .inl ⟨rfl, _, rfl⟩
  | openNested => exact .inl ⟨rfl, _, rfl⟩
  | openArray => exact .inl ⟨rfl, _, rfl⟩
  | close => exact .inr (.inl ⟨rfl, rfl⟩)
  | connect link => rcases link with rfl | rfl <;> exact .inr (.inr ⟨by decide, rfl⟩)
  | separate link => rcases link with rfl | rfl <;> exact .inr (.inr ⟨by decide, rfl⟩)
  | sign sign => rcases sign with rfl | rfl <;> exact .inr (.inr ⟨by decide, rfl⟩)
  | signCast sign => rcases sign with rfl | rfl <;> exact .inr (.inr ⟨by decide, rfl⟩)
  | scalar scalar => cases scalar <;> exact .inr (.inr ⟨by decide, rfl⟩)
  | _ => exact .inr (.inr ⟨by decide, rfl⟩)

/-- The machine has as many parentheses open as there are, as long as none is closed that
is not open. -/
theorem Move.depthBehind (h : Move m s n)
    (hdepth : depthBehind m.frames.length (s.kind :: kinds) = some last) :
    ResourceQuery.depthBehind n.frames.length kinds = some last ∧
      (s = .plain .closeParenthesis → m.frames ≠ []) := by
  rcases h.frames with ⟨rfl, f, hframes⟩ | ⟨rfl, hframes⟩ | ⟨⟨hopen, hclose⟩, hframes⟩
  · rw [hframes, List.length_cons]
    exact ⟨hdepth, nofun⟩
  · have hne : m.frames ≠ [] := by
      intro hnil
      rw [hnil] at hdepth
      cases hdepth
    obtain ⟨f, fs, hfs⟩ := List.exists_cons_of_ne_nil hne
    rw [hfs] at hdepth
    rw [hframes, hfs]
    exact ⟨hdepth, fun _ => List.cons_ne_nil f fs⟩
  · rw [depthBehind_of_ne hopen hclose] at hdepth
    rw [hframes]
    refine ⟨hdepth, ?_⟩
    rintro rfl
    exact absurd rfl hclose

end Machine

end ResourceQuery

/-
The machine accepts exactly the words that can still become a sentence.

One half is a run: a value, an argument or an expression takes the machine from the
context it starts in to the context behind it and leaves the open parentheses as
they were.  That is an induction over derivations, nested as deeply as the words
are.

The other half goes backwards.  `Completes m v` says in terms of the grammar alone
that `v` would carry the machine `m` to the end of a sentence: `v` first finishes
what the context has begun (`Finishes`) and then everything that is still open
(`Closes`).  A move can be undone in front of such a word: if `s` leads from `m` to
`n` and `v` completes `n`, then `s :: v` completes `m`.  Every machine that a run
leads to has a completing word, and undoing the run turns it into a sentence.
-/
import ResourceQuery.Proofs.Grammar.Moves

namespace ResourceQuery

open Grammar

namespace Machine

variable {fs : List Frame} {w : Word} {s : Symbol}

theorem acceptAll_append_of {m n : Machine} {v : Word} (h : m.acceptAll v = some n)
    (w : Word) : m.acceptAll (v ++ w) = n.acceptAll w := by
  rw [acceptAll_append, h]
  rfl

theorem acceptAll_singleton {m n : Machine} (h : Move m s n) : m.acceptAll [s] = some n :=
  acceptAll_cons_of_move h []

/-- A list in parentheses, from the context behind its opening parenthesis. -/
theorem acceptAll_enclosed {m : Machine} {c d : Context} {f : Frame}
    (hopen : Move m (.plain .openParenthesis) ⟨c, f :: fs⟩)
    (hrun : acceptAll ⟨c, f :: fs⟩ w = some ⟨d, f :: fs⟩)
    (hbetween : InList d ∨ d = .afterExpression) :
    m.acceptAll (enclosed w) = some ⟨afterValue fs, fs⟩ := by
  rw [enclosed, List.cons_append, acceptAll_cons_of_move hopen, acceptAll_append_of hrun]
  exact acceptAll_singleton (.close hbetween)

/-! ### What a sentence does to the machine -/

theorem acceptAll_item (h : Item w) :
    acceptAll ⟨.array, .array :: fs⟩ w = some ⟨.array, .array :: fs⟩ := by
  cases h with
  | scalar hs => exact acceptAll_singleton (.scalar hs (.inl (.inr (.inr rfl))))
  | cast hs =>
      rw [acceptAll_cons_of_move (.typeName (.inr (.inr rfl))), acceptAll_cons_of_move .colon]
      exact acceptAll_singleton (.scalar hs (.inr rfl))
  | comma => exact acceptAll_singleton (.comma (.inr rfl))

theorem acceptAll_items (h : Many Item w) :
    acceptAll ⟨.array, .array :: fs⟩ w = some ⟨.array, .array :: fs⟩ := by
  induction h with
  | nil => rfl
  | cons head _ ih => rw [acceptAll_append_of (acceptAll_item head), ih]

theorem acceptAll_value (h : Value w) :
    acceptAll ⟨.afterComparison, fs⟩ w = some ⟨afterValue fs, fs⟩ := by
  cases h with
  | scalar hs => exact acceptAll_singleton (.scalar hs (.inl (.inl rfl)))
  | cast hs =>
      rw [acceptAll_cons_of_move (.typeName (.inl rfl)), acceptAll_cons_of_move .colon]
      exact acceptAll_singleton (.scalar hs (.inr rfl))
  | list items =>
      exact acceptAll_enclosed .openArray (acceptAll_items items) (.inl (.inr rfl))

/-- Under a cast, a sign is admitted where an argument list is the innermost. -/
theorem acceptAll_signedCast {c : Context} (hc : StartsValue c) (h : SignedCast w)
    (hfs : afterValue fs = .arguments) :
    acceptAll ⟨c, fs⟩ w = some ⟨.arguments, fs⟩ := by
  obtain ⟨sign⟩ := h
  rw [acceptAll_cons_of_move (.typeName hc), acceptAll_cons_of_move .colon,
    acceptAll_cons_of_move (.signCast sign hfs), ← hfs]
  exact acceptAll_singleton .signed

/-- A comparison, from its field to the end of its value. -/
theorem acceptAll_comparison {c : Context} (hc : StartsTerm c) {n : Machine}
    (h : acceptAll ⟨.afterComparison, fs⟩ w = some n) :
    acceptAll ⟨c, fs⟩ (.field :: .comparison :: w) = some n := by
  rw [acceptAll_cons_of_move (.field hc), acceptAll_cons_of_move .comparison, h]

mutual

theorem acceptAll_argument {w : Word} (h : Argument w) {fs : List Frame}
    (hfs : afterValue fs = .arguments) :
    acceptAll ⟨.arguments, fs⟩ w = some ⟨.arguments, fs⟩ := by
  match h with
  | .scalar hs =>
      rw [acceptAll_singleton (.scalar hs (.inl (.inr (.inl rfl)))), hfs]
  | .signed sign =>
      rw [acceptAll_cons_of_move (.sign sign), acceptAll_singleton .signed, hfs]
  | .cast hs =>
      rw [acceptAll_cons_of_move (.typeName (.inr (.inl rfl))), acceptAll_cons_of_move .colon,
        acceptAll_singleton (.scalar hs (.inr rfl)), hfs]
  | .signedCast cast => exact acceptAll_signedCast (.inr (.inl rfl)) cast hfs
  | .comparison value => rw [acceptAll_comparison (.inr rfl) (acceptAll_value value), hfs]
  | .signedComparison cast =>
      exact acceptAll_comparison (.inr rfl) (acceptAll_signedCast (.inl rfl) cast hfs)
  | .call arguments =>
      rw [acceptAll_cons_of_move (.operator (.inr rfl)), acceptAll_enclosed .openCall
        (acceptAll_manyArguments arguments rfl) (.inl (.inl rfl)), hfs]
  | .nested arguments =>
      rw [acceptAll_enclosed .openNested (acceptAll_manyArguments arguments rfl)
        (.inl (.inl rfl)), hfs]
  | .comma => exact acceptAll_singleton (.comma (.inl rfl))
  | .connective link => exact acceptAll_singleton (.separate link)

theorem acceptAll_manyArguments {w : Word} (h : Many Argument w) {fs : List Frame}
    (hfs : afterValue fs = .arguments) :
    acceptAll ⟨.arguments, fs⟩ w = some ⟨.arguments, fs⟩ := by
  match h with
  | .nil => rfl
  | .cons head tail =>
      rw [acceptAll_append_of (acceptAll_argument head hfs)]
      exact acceptAll_manyArguments tail hfs

end

theorem acceptAll_call {c : Context} (hc : StartsTerm c) (h : Many Argument w) :
    acceptAll ⟨c, fs⟩ (.plain .operator :: enclosed w) = some ⟨afterValue fs, fs⟩ := by
  rw [acceptAll_cons_of_move (.operator hc)]
  exact acceptAll_enclosed .openCall (acceptAll_manyArguments h rfl) (.inl (.inl rfl))

mutual

theorem acceptAll_expression {w : Word} (h : Expression w) {fs : List Frame}
    (hfs : afterValue fs = .afterExpression) :
    acceptAll ⟨.expressionStart, fs⟩ w = some ⟨.afterExpression, fs⟩ := by
  match h with
  | .comparison value => rw [acceptAll_comparison (.inl rfl) (acceptAll_value value), hfs]
  | .call arguments => rw [acceptAll_call (.inl rfl) arguments, hfs]
  | .group query =>
      rw [acceptAll_enclosed .openGroup (acceptAll_query query rfl) (.inr rfl), hfs]

theorem acceptAll_query {w : Word} (h : Joined Expression w) {fs : List Frame}
    (hfs : afterValue fs = .afterExpression) :
    acceptAll ⟨.expressionStart, fs⟩ w = some ⟨.afterExpression, fs⟩ := by
  match h with
  | .single only => exact acceptAll_expression only hfs
  | .cons head link tail =>
      rw [acceptAll_append_of (acceptAll_expression head hfs),
        acceptAll_cons_of_move (.connect link)]
      exact acceptAll_query tail hfs

end

theorem acceptAll_surplus (n : Nat) :
    acceptAll ⟨.afterExpression, []⟩ (List.replicate n (.plain .closeParenthesis))
      = some ⟨.afterExpression, []⟩ := by
  induction n with
  | zero => rfl
  | succ n ih => rw [List.replicate_succ, acceptAll_cons_of_move (.close (.inr rfl))]; exact ih

theorem acceptAll_outermost (h : Joined OutermostExpression w) :
    start.acceptAll w = some ⟨.afterExpression, []⟩ := by
  have houter : ∀ {v : Word}, OutermostExpression v →
      start.acceptAll v = some ⟨.afterExpression, []⟩ := by
    rintro v ⟨expression, n⟩
    rw [start, acceptAll_append_of (acceptAll_expression expression rfl), acceptAll_surplus]
  induction h with
  | single only => exact houter only
  | cons head link _ ih =>
      rw [acceptAll_append_of (houter head), acceptAll_cons_of_move (.connect link)]
      exact ih

/-- A sentence is accepted from its first symbol to its last. -/
theorem isSome_acceptAll_of_sentence (h : Sentence w) : (start.acceptAll w).isSome := by
  cases h with
  | empty => rfl
  | query query => rw [acceptAll_outermost query]; rfl

end Machine

/-! ### What is still to come

`Closes fs v`: behind a finished item, `v` goes on to the end of a sentence when the
parentheses `fs` are open.  `Finishes list c v`: `v` finishes what the context `c`
has begun, inside a list whose items are followed by the context `list`.
-/

namespace Grammar

/-- Nothing more, or a connective and more words of a kind. -/
inductive Continued (P : Word → Prop) : Word → Prop
  | nothing : Continued P []
  | link {s : Symbol} {w : Word} (link : Connective s) (tail : Joined P w) :
      Continued P (s :: w)

theorem Joined.of_continued {P : Word → Prop} {v w : Word} (head : P v)
    (h : Continued P w) : Joined P (v ++ w) := by
  cases h with
  | nothing => rw [List.append_nil]; exact .single head
  | link link tail => exact .cons head link tail

inductive Closes : List Frame → Word → Prop
  | outermost {w : Word} (surplus : Nat) (more : Continued OutermostExpression w) :
      Closes [] (List.replicate surplus (.plain .closeParenthesis) ++ w)
  | group {fs : List Frame} {w v : Word} (more : Continued Expression w)
      (rest : Closes fs v) : Closes (.group :: fs) (w ++ .plain .closeParenthesis :: v)
  | arguments {fs : List Frame} {w v : Word} (more : Many Argument w)
      (rest : Closes fs v) : Closes (.arguments :: fs) (w ++ .plain .closeParenthesis :: v)
  | nested {fs : List Frame} {w v : Word} (more : Many Argument w)
      (rest : Closes fs v) : Closes (.nested :: fs) (w ++ .plain .closeParenthesis :: v)
  | array {fs : List Frame} {w v : Word} (more : Many Item w)
      (rest : Closes fs v) : Closes (.array :: fs) (w ++ .plain .closeParenthesis :: v)

inductive Finishes (list : Context) : Context → Word → Prop
  | betweenExpressions (inside : list = .afterExpression) : Finishes list .afterExpression []
  | betweenArguments (inside : list = .arguments) : Finishes list .arguments []
  | betweenItems (inside : list = .array) : Finishes list .array []
  | expression {w : Word} (expression : Expression w) : Finishes list .expressionStart w
  | call {w : Word} (arguments : Many Argument w) : Finishes list .afterOperator (enclosed w)
  | comparison {w : Word} (value : Finishes list .afterComparison w) :
      Finishes list .afterField (.comparison :: w)
  | value {w : Word} (value : Value w) : Finishes list .afterComparison w
  | signedValue {w : Word} (inside : list = .arguments) (cast : SignedCast w) :
      Finishes list .afterComparison w
  | signed : Finishes list .afterSign [.plain .string]
  | cast {w : Word} (literal : Finishes list .afterCast w) :
      Finishes list .afterType (.plain .colon :: w)
  | scalar {s : Symbol} (scalar : Scalar s) : Finishes list .afterCast [s]
  | signedScalar {s : Symbol} (inside : list = .arguments) (sign : Sign s) :
      Finishes list .afterCast [s, .plain .string]

variable {fs : List Frame} {u v w : Word} {s : Symbol}

theorem enclosed_append (w v : Word) :
    enclosed w ++ v = .plain .openParenthesis :: (w ++ .plain .closeParenthesis :: v) := by
  simp [enclosed]

theorem closes_argument (hfs : Machine.afterValue fs = .arguments) (hu : Argument u)
    (h : Closes fs v) : Closes fs (u ++ v) := by
  cases h with
  | outermost => cases hfs
  | group => cases hfs
  | array => cases hfs
  | arguments more rest => rw [← List.append_assoc]; exact .arguments (.cons hu more) rest
  | nested more rest => rw [← List.append_assoc]; exact .nested (.cons hu more) rest

theorem closes_item (hfs : Machine.afterValue fs = .array) (hu : Item u)
    (h : Closes fs v) : Closes fs (u ++ v) := by
  cases h with
  | outermost => cases hfs
  | group => cases hfs
  | arguments => cases hfs
  | nested => cases hfs
  | array more rest => rw [← List.append_assoc]; exact .array (.cons hu more) rest

theorem closes_expression (hfs : Machine.afterValue fs = .afterExpression)
    (hs : Connective s) (hu : Expression u) (h : Closes fs v) : Closes fs (s :: (u ++ v)) := by
  cases h with
  | arguments => cases hfs
  | nested => cases hfs
  | array => cases hfs
  | outermost surplus more =>
      rw [← List.append_assoc]
      exact .outermost 0 (.link hs (.of_continued ⟨hu, surplus⟩ more))
  | group more rest =>
      rw [← List.append_assoc, ← List.cons_append]
      exact .group (.link hs (.of_continued hu more)) rest

theorem closes_close (h : Closes fs.tail v) : Closes fs (.plain .closeParenthesis :: v) := by
  match fs with
  | [] =>
      cases h with
      | outermost surplus more => exact .outermost (surplus + 1) more
  | .group :: _ => exact .group .nothing h
  | .arguments :: _ => exact .arguments .nil h
  | .nested :: _ => exact .nested .nil h
  | .array :: _ => exact .array .nil h

theorem exists_closes (fs : List Frame) : ∃ v, Closes fs v := by
  induction fs with
  | nil => exact ⟨_, .outermost 0 .nothing⟩
  | cons f fs ih =>
      obtain ⟨v, hv⟩ := ih
      exact ⟨_, closes_close hv⟩

end Grammar

namespace Machine

variable {fs : List Frame} {v : Word}

/-- `v` carries the machine on to the end of a sentence. -/
inductive Completes : Machine → Word → Prop
  | mk {c : Context} {fs : List Frame} {u v : Word} (finish : Finishes (afterValue fs) c u)
      (close : Closes fs v) : Completes ⟨c, fs⟩ (u ++ v)

theorem between_afterValue (fs : List Frame) :
    InList (afterValue fs) ∨ afterValue fs = .afterExpression := by
  match fs with
  | [] | .group :: _ => exact .inr rfl
  | .arguments :: _ | .nested :: _ => exact .inl (.inl rfl)
  | .array :: _ => exact .inl (.inr rfl)

theorem completes_of_closes {c : Context} (hc : afterValue fs = c) (h : Closes fs v) :
    Completes ⟨c, fs⟩ v := by
  subst hc
  refine .mk (u := []) ?_ h
  rcases between_afterValue fs with (hc | hc) | hc
  · exact hc ▸ .betweenArguments rfl
  · exact hc ▸ .betweenItems rfl
  · exact hc ▸ .betweenExpressions rfl

theorem closes_of_completes {c : Context} (hc : InList c ∨ c = .afterExpression)
    (h : Completes ⟨c, fs⟩ v) : Closes fs v := by
  obtain ⟨finish, close⟩ := h
  rcases hc with (rfl | rfl) | rfl <;> cases finish <;> exact close

/-- A field can be put in front of whatever finishes its comparison. -/
theorem completes_field {c : Context} (hc : StartsTerm c) (hm : Coherent ⟨c, fs⟩)
    (h : Completes ⟨.afterField, fs⟩ v) : Completes ⟨c, fs⟩ (.field :: v) := by
  obtain ⟨finish, close⟩ := h
  rw [← List.cons_append]
  cases finish with
  | comparison finish =>
      rcases hc with rfl | rfl
      · have hfs : afterValue fs = .afterExpression := hm
        cases finish with
        | value value => exact .mk (.expression (.comparison value)) close
        | signedValue inside => cases hfs.symm.trans inside
      · have hfs : afterValue fs = .arguments := hm
        refine completes_of_closes hfs ?_
        cases finish with
        | value value => exact closes_argument hfs (.comparison value) close
        | signedValue _ cast => exact closes_argument hfs (.signedComparison cast) close

theorem completes_operator {c : Context} (hc : StartsTerm c) (hm : Coherent ⟨c, fs⟩)
    (h : Completes ⟨.afterOperator, fs⟩ v) : Completes ⟨c, fs⟩ (.plain .operator :: v) := by
  obtain ⟨finish, close⟩ := h
  rw [← List.cons_append]
  cases finish with
  | call arguments =>
      rcases hc with rfl | rfl
      · exact .mk (.expression (.call arguments)) close
      · have hfs : afterValue fs = .arguments := hm
        exact completes_of_closes hfs (closes_argument hfs (.call arguments) close)

theorem completes_scalar {c : Context} {s : Symbol} (hs : Scalar s)
    (hc : StartsValue c ∨ c = .afterCast) (hm : Coherent ⟨c, fs⟩)
    (h : Closes fs v) : Completes ⟨c, fs⟩ (s :: v) := by
  rcases hc with (rfl | rfl | rfl) | rfl
  · exact .mk (.value (.scalar hs)) h
  · exact completes_of_closes hm (closes_argument hm (.scalar hs) h)
  · exact completes_of_closes hm (closes_item hm (.scalar hs) h)
  · exact .mk (.scalar hs) h

theorem completes_typeName {c : Context} (hc : StartsValue c) (hm : Coherent ⟨c, fs⟩)
    (h : Completes ⟨.afterType, fs⟩ v) : Completes ⟨c, fs⟩ (.plain .typeName :: v) := by
  obtain ⟨finish, close⟩ := h
  rw [← List.cons_append]
  cases finish with
  | cast finish =>
      rcases hc with rfl | rfl | rfl
      · cases finish with
        | scalar hs => exact .mk (.value (.cast hs)) close
        | signedScalar inside sign => exact .mk (.signedValue inside ⟨sign⟩) close
      · have hfs : afterValue fs = .arguments := hm
        refine completes_of_closes hfs ?_
        cases finish with
        | scalar hs => exact closes_argument hfs (.cast hs) close
        | signedScalar _ sign => exact closes_argument hfs (.signedCast ⟨sign⟩) close
      · have hfs : afterValue fs = .array := hm
        refine completes_of_closes hfs ?_
        cases finish with
        | scalar hs => exact closes_item hfs (.cast hs) close
        | signedScalar inside => cases hfs.symm.trans inside

/-- **A move can be undone in front of a word that completes the machine behind it.** -/
theorem completes_of_move {m n : Machine} {s : Symbol} (hm : m.Coherent) (h : Move m s n)
    (hn : n.Completes v) : m.Completes (s :: v) := by
  cases h with
  | field start => exact completes_field start hm hn
  | operator start => exact completes_operator start hm hn
  | typeName start => exact completes_typeName start hm hn
  | scalar scalar start =>
      exact completes_scalar scalar start hm (closes_of_completes (between_afterValue _) hn)
  | comparison =>
      obtain ⟨finish, close⟩ := hn
      exact .mk (.comparison finish) close
  | colon =>
      obtain ⟨finish, close⟩ := hn
      exact .mk (.cast finish) close
  | signed =>
      exact .mk .signed (closes_of_completes (between_afterValue _) hn)
  | sign sign =>
      obtain ⟨finish, close⟩ := hn
      cases finish
      exact completes_of_closes hm (closes_argument hm (.signed sign) close)
  | signCast sign inside =>
      obtain ⟨finish, close⟩ := hn
      cases finish
      exact .mk (.signedScalar inside sign) close
  | comma between =>
      have hclose := closes_of_completes (.inl between) hn
      rcases between with rfl | rfl
      · exact completes_of_closes hm (closes_argument hm .comma hclose)
      · exact completes_of_closes hm (closes_item hm .comma hclose)
  | separate link =>
      have hclose := closes_of_completes (.inl (.inl rfl)) hn
      exact completes_of_closes hm (closes_argument hm (.connective link) hclose)
  | connect link =>
      obtain ⟨finish, close⟩ := hn
      cases finish with
      | expression expression =>
          exact completes_of_closes hm (closes_expression hm link expression close)
  | close between =>
      have hclose := closes_close (closes_of_completes (between_afterValue _) hn)
      rcases between with (rfl | rfl) | rfl <;> exact completes_of_closes hm hclose
  | openCall =>
      cases closes_of_completes (.inl (.inl rfl)) hn with
      | arguments more rest => exact enclosed_append _ _ ▸ .mk (.call more) rest
  | openNested =>
      cases closes_of_completes (.inl (.inl rfl)) hn with
      | nested more rest =>
          rw [← enclosed_append]
          exact completes_of_closes hm (closes_argument hm (.nested more) rest)
  | openArray =>
      cases closes_of_completes (.inl (.inr rfl)) hn with
      | array more rest => exact enclosed_append _ _ ▸ .mk (.value (.list more)) rest
  | openGroup =>
      obtain ⟨finish, close⟩ := hn
      cases finish with
      | expression expression =>
          cases close with
          | group more rest =>
              rw [← List.append_assoc, ← enclosed_append]
              exact .mk (.expression (.group (.of_continued expression more))) rest

/-- Every machine that a run can lead to can be carried on to the end of a sentence. -/
theorem exists_completes {m : Machine} (hm : m.Coherent) : ∃ v, m.Completes v := by
  obtain ⟨c, fs⟩ := m
  obtain ⟨v, hv⟩ := exists_closes fs
  cases c with
  | expressionStart => exact ⟨_, .mk (.expression (.call .nil)) hv⟩
  | afterOperator => exact ⟨_, .mk (.call .nil) hv⟩
  | afterField => exact ⟨_, .mk (.comparison (.value (.scalar .string))) hv⟩
  | afterComparison => exact ⟨_, .mk (.value (.scalar .string)) hv⟩
  | arguments => exact ⟨_, completes_of_closes hm hv⟩
  | array => exact ⟨_, completes_of_closes hm hv⟩
  | afterSign => exact ⟨_, .mk .signed hv⟩
  | afterType => exact ⟨_, .mk (.cast (.scalar .string)) hv⟩
  | afterCast => exact ⟨_, .mk (.scalar .string) hv⟩
  | afterExpression => exact ⟨_, completes_of_closes hm hv⟩

/-- Undoing a whole run in front of a completing word. -/
theorem completes_of_acceptAll {m n : Machine} {w : Word} (hm : m.Coherent)
    (h : m.acceptAll w = some n) (hn : n.Completes v) : m.Completes (w ++ v) := by
  induction w generalizing m with
  | nil =>
      obtain rfl := Option.some.inj h
      exact hn
  | cons s w ih =>
      obtain ⟨k, hmove, hrest⟩ := acceptAll_cons_eq_some_iff.mp h
      exact completes_of_move hm hmove (ih (hm.move hmove) hrest)

/-- In front of a query, only sentences complete the machine. -/
theorem sentence_of_completes_start (h : start.Completes v) : Sentence v := by
  obtain ⟨finish, close⟩ := h
  cases finish with
  | expression expression =>
      cases close with
      | outermost surplus more =>
          rw [← List.append_assoc]
          exact .query (.of_continued ⟨expression, surplus⟩ more)

/--
**The machine accepts exactly the prefixes of sentences.**  It refuses a symbol as
soon as no sentence goes on with it, and never before.
-/
theorem isSome_acceptAll_iff_prefix (w : Word) :
    (start.acceptAll w).isSome ↔ ∃ z, Sentence z ∧ w <+: z := by
  constructor
  · intro h
    obtain ⟨m, hm⟩ := Option.isSome_iff_exists.mp h
    obtain ⟨v, hv⟩ := exists_completes (coherent_start.acceptAll hm)
    have hstart := completes_of_acceptAll coherent_start hm hv
    exact ⟨w ++ v, sentence_of_completes_start hstart, List.prefix_append w v⟩
  · rintro ⟨_, hz, v, rfl⟩
    have haccepted := isSome_acceptAll_of_sentence hz
    rw [acceptAll_append] at haccepted
    exact Option.isSome_of_isSome_bind haccepted

end Machine

end ResourceQuery

/-
A token stream is read as a list that only gets shorter.

What a reader still has in front of it is the current token and the tokens behind it: a
list that is never empty.  `TokenStream.suffix` is that list.  Every request comes to the
same on the stream and on the list (`suffix_serve`), and so does every sequence of requests
(`suffix_serveAll`), so what is true of shortening a list is true of moving the cursor.

One thing about the list the stream alone does not know.  Whether the current token is a
sentinel is asked of its kind, and on the list it is whether nothing is behind it.  The two
agree because a scan puts no sentinel anywhere but at the end (`Sealed`).
-/
import Mathlib.Logic.Function.Iterate
import ResourceQuery.Json.Value
import ResourceQuery.Proofs.Scan.Tiling

namespace ResourceQuery

/-- What a reader can ask of a stream. -/
inductive Request
  | current
  | next
  | lookAhead (n : Nat)
  | test (kind : Kind)
  | testAny (kinds : List Kind)
  | nextIf (kind : Kind)
  | expect (kind : Kind)
  | isEnd
  | size
  /-- All tokens, wherever the cursor is. -/
  | tokens
  deriving DecidableEq, Repr

/-- What a request is answered. -/
inductive Answer
  | token (t : Token)
  | found (t : Option Token)
  | refused (e : SyntaxError)
  | truth (b : Bool)
  | count (n : Nat)
  | tokens (ts : List Token)
  deriving DecidableEq, Repr

/-- Whether a request takes the token it meets. -/
def Request.takes : Request → Token → Bool
  | next, _ => true
  | nextIf kind, t => t.kind = kind
  | expect kind, t => t.kind = kind
  | _, _ => false

namespace TokenStream

/-- The answer to a request, and the stream it leaves; a failing one leaves the stream as it
is. -/
def serve (s : TokenStream) : Request → Answer × TokenStream
  | .current => (.token s.current, s)
  | .next => (.token s.next.1, s.next.2)
  | .lookAhead n => (.token (s.lookAhead n), s)
  | .test kind => (.truth (s.test kind), s)
  | .testAny kinds => (.truth (s.testAny kinds), s)
  | .nextIf kind => (.found (s.nextIf kind).1, (s.nextIf kind).2)
  | .expect kind =>
    match s.expect kind with
    | .ok (t, rest) => (.token t, rest)
    | .error e => (.refused e, s)
  | .isEnd => (.truth s.isEnd, s)
  | .size => (.count s.size, s)
  | .tokens => (.tokens s.toList, s)

/-- The answers to requests one after another, and the stream they leave. -/
def serveAll (s : TokenStream) : List Request → List Answer × TokenStream
  | [] => ([], s)
  | r :: rs => ((s.serve r).1 :: ((s.serve r).2.serveAll rs).1, ((s.serve r).2.serveAll rs).2)

end TokenStream

/-- A list of tokens that is not empty. -/
structure Suffix where
  head : Token
  tail : List Token
  deriving DecidableEq, Repr

namespace Suffix

/-- The list without its first token, unless there is no other. -/
def advance : Suffix → Suffix
  | ⟨t, []⟩ => ⟨t, []⟩
  | ⟨_, u :: us⟩ => ⟨u, us⟩

/-- What a request is answered in front of the list; `all` are the tokens it is the end
of. -/
def answer (all : List Token) (s : Suffix) : Request → Answer
  | .current => .token s.head
  | .next => .token s.head
  | .lookAhead n => .token (advance^[n] s).head
  | .test kind => .truth (s.head.kind = kind)
  | .testAny kinds => .truth (s.head.kind ∈ kinds)
  | .nextIf kind => .found (if s.head.kind = kind then some s.head else none)
  | .expect kind => if s.head.kind = kind then .token s.head else .refused (.ofToken s.head)
  | .isEnd => .truth s.tail.isEmpty
  | .size => .count all.length
  | .tokens => .tokens all

/-- The answer to a request, and the list it leaves. -/
def serve (all : List Token) (s : Suffix) (r : Request) : Answer × Suffix :=
  (s.answer all r, if r.takes s.head then s.advance else s)

/-- The answers to requests one after another, and the list they leave. -/
def serveAll (all : List Token) (s : Suffix) : List Request → List Answer × Suffix
  | [] => ([], s)
  | r :: rs =>
    ((s.serve all r).1 :: ((s.serve all r).2.serveAll all rs).1,
      ((s.serve all r).2.serveAll all rs).2)

/-- Asking for the next token returns the tokens in front of the last, one after another. -/
theorem serveAll_next {s : Suffix} {front : List Token} {last : Token} (all : List Token)
    (h : s.head :: s.tail = front ++ [last]) :
    s.serveAll all (List.replicate front.length .next) = (front.map .token, ⟨last, []⟩) := by
  obtain ⟨head, tail⟩ := s
  induction front generalizing head tail with
  | nil =>
      obtain ⟨rfl, rfl⟩ := List.cons.inj h
      rfl
  | cons t front ih =>
      obtain ⟨rfl, htail⟩ : head = t ∧ tail = front ++ [last] := List.cons.inj h
      obtain ⟨u, us, rfl⟩ : ∃ u us, tail = u :: us :=
        List.exists_cons_of_ne_nil (htail ▸ List.concat_ne_nil last front)
      have hserve : (⟨head, u :: us⟩ : Suffix).serve all .next = (.token head, ⟨u, us⟩) := rfl
      rw [List.length_cons, List.replicate_succ, serveAll, hserve, ih u us htail]
      rfl

end Suffix

namespace TokenStream

variable {s : TokenStream} {r : Request}

/-- What a reader has in front of it: the current token and those behind it. -/
def suffix (s : TokenStream) : Suffix :=
  ⟨s.current, s.toList.drop (s.cursor.val + 1)⟩

/-- The last token is the sentinel, and no other is one. -/
def Sealed (s : TokenStream) : Prop :=
  ∃ ts position, s.toList = ts ++ [Token.sentinel position] ∧ ∀ t ∈ ts, t.kind ≠ .ending

/-! ### What one request comes to -/

theorem size_eq (s : TokenStream) : s.size = s.toList.length :=
  rfl

theorem test_eq (s : TokenStream) (kind : Kind) :
    s.test kind = decide (s.current.kind = kind) :=
  rfl

theorem testAny_eq (s : TokenStream) (kinds : List Kind) :
    s.testAny kinds = decide (s.current.kind ∈ kinds) := by
  rw [Bool.eq_iff_iff, testAny, List.any_eq_true, decide_eq_true_eq]
  simp only [test_eq, decide_eq_true_eq, exists_eq_right']

theorem getElem?_cursor (s : TokenStream) : s.toList[s.cursor.val]? = some s.current := by
  simp [current, toList]

theorem cursor_advance (s : TokenStream) :
    s.advance.cursor.val = if s.cursor.val + 1 < s.size then s.cursor.val + 1 else s.cursor.val := by
  by_cases h : s.cursor.val + 1 < s.tokens.size
  · rw [advance, dif_pos h, if_pos (show s.cursor.val + 1 < s.size from h)]
  · rw [advance, dif_neg h, if_neg (show ¬ s.cursor.val + 1 < s.size from h)]

theorem suffix_advance (s : TokenStream) : s.advance.suffix = s.suffix.advance := by
  by_cases h : s.cursor.val + 1 < s.toList.length
  · have hcursor : s.advance.cursor.val = s.cursor.val + 1 := by
      rw [cursor_advance, if_pos (show s.cursor.val + 1 < s.size from h)]
    have hcurrent : s.advance.current = s.toList[s.cursor.val + 1] := by
      have hget := s.advance.getElem?_cursor
      rw [toList_advance, hcursor, List.getElem?_eq_getElem h] at hget
      exact (Option.some.inj hget).symm
    rw [suffix, suffix, hcurrent, hcursor, toList_advance, List.drop_eq_getElem_cons h]
    rfl
  · have hadvance : s.advance = s := dif_neg h
    rw [hadvance, suffix, List.drop_eq_nil_of_le (Nat.le_of_not_lt h)]
    rfl

theorem getElem?_lookAhead (s : TokenStream) (n : Nat) :
    s.toList[min (s.cursor.val + n) (s.size - 1)]? = some (s.lookAhead n) := by
  have hlt : min (s.cursor.val + n) (s.size - 1) < s.tokens.size := (s.clamp _).isLt
  rw [toList, Array.getElem?_toList, Array.getElem?_eq_getElem hlt]
  rfl

theorem lookAhead_zero (s : TokenStream) : s.lookAhead 0 = s.current := by
  have hlt : s.cursor.val < s.size := s.cursor.isLt
  have hindex : min (s.cursor.val + 0) (s.size - 1) = s.cursor.val := by omega
  have hget := s.getElem?_lookAhead 0
  rw [hindex, getElem?_cursor] at hget
  exact (Option.some.inj hget).symm

theorem lookAhead_succ (s : TokenStream) (n : Nat) :
    s.lookAhead (n + 1) = s.advance.lookAhead n := by
  have hsize : s.advance.size = s.size := by
    rw [size_eq, size_eq, toList_advance]
  have hlt : s.cursor.val < s.size := s.cursor.isLt
  have hindex : min (s.advance.cursor.val + n) (s.advance.size - 1) =
      min (s.cursor.val + (n + 1)) (s.size - 1) := by
    rw [hsize, cursor_advance]
    split <;> omega
  have hget := s.advance.getElem?_lookAhead n
  rw [toList_advance, hindex, getElem?_lookAhead] at hget
  exact Option.some.inj hget

/-- Looking ahead finds what so many steps forward lead to. -/
theorem lookAhead_eq_iterate (s : TokenStream) (n : Nat) :
    s.lookAhead n = (advance^[n] s).current := by
  induction n generalizing s with
  | zero => exact s.lookAhead_zero
  | succ n ih => rw [lookAhead_succ, ih, Function.iterate_succ_apply]

theorem suffix_iterate (s : TokenStream) (n : Nat) :
    (advance^[n] s).suffix = Suffix.advance^[n] s.suffix := by
  induction n generalizing s with
  | zero => rfl
  | succ n ih => rw [Function.iterate_succ_apply, Function.iterate_succ_apply, ih, suffix_advance]

/-- The cursor is on a sentinel just where no token is behind it. -/
theorem Sealed.isEnd_iff (h : s.Sealed) : s.isEnd = true ↔ s.cursor.val + 1 = s.size := by
  obtain ⟨ts, position, hlist, hkind⟩ := h
  have hget := s.getElem?_cursor
  have hlt : s.cursor.val < s.size := s.cursor.isLt
  have hsize : s.size = ts.length + 1 := by
    rw [size_eq, hlist, List.length_append, List.length_singleton]
  rw [hlist] at hget
  by_cases hcursor : s.cursor.val < ts.length
  · rw [List.getElem?_append_left hcursor] at hget
    have hne := hkind _ (List.mem_of_getElem? hget)
    have hend : s.isEnd = false := by simpa [isEnd, Token.isEnd, Token.test] using hne
    simp only [hend, Bool.false_eq_true, false_iff]
    omega
  · have hcursor : s.cursor.val = ts.length := by omega
    rw [hcursor, List.getElem?_concat_length] at hget
    have hend : s.isEnd = true := by
      rw [isEnd, ← Option.some.inj hget]
      rfl
    simp only [hend, true_iff]
    omega

theorem Sealed.isEnd_eq (h : s.Sealed) : s.isEnd = s.suffix.tail.isEmpty := by
  rw [Bool.eq_iff_iff, h.isEnd_iff, suffix, List.isEmpty_iff, List.drop_eq_nil_iff, ← size_eq]
  have hlt : s.cursor.val < s.size := s.cursor.isLt
  omega

/-! ### A request moves the cursor or leaves the stream alone -/

/-- The stream that a request leaves: the next place if it takes the token it meets. -/
theorem serve_snd (s : TokenStream) (r : Request) :
    (s.serve r).2 = if r.takes s.current then s.advance else s := by
  cases r with
  | nextIf kind =>
      by_cases hkind : s.current.kind = kind <;>
        simp [serve, nextIf, Request.takes, test_eq, hkind]
  | expect kind =>
      by_cases hkind : s.current.kind = kind <;>
        simp [serve, expect, next, Request.takes, test_eq, hkind]
  | _ => rfl

theorem toList_serve (s : TokenStream) (r : Request) : (s.serve r).2.toList = s.toList := by
  rw [serve_snd]
  split
  · exact s.toList_advance
  · rfl

/-- A request comes to the same on the stream and on the list in front of the reader. -/
theorem suffix_serve (h : s.Sealed) (r : Request) :
    (s.serve r).1 = (s.suffix.serve s.toList r).1 ∧
      (s.serve r).2.suffix = (s.suffix.serve s.toList r).2 := by
  refine ⟨?_, ?_⟩
  · cases r with
    | lookAhead n =>
        simp only [serve, Suffix.serve, Suffix.answer, lookAhead_eq_iterate, ← suffix_iterate]
        rfl
    | testAny kinds =>
        simp only [serve, Suffix.serve, Suffix.answer, testAny_eq]
        rfl
    | nextIf kind =>
        by_cases hkind : s.current.kind = kind <;>
          simp [serve, nextIf, Suffix.serve, Suffix.answer, suffix, test_eq, hkind]
    | expect kind =>
        by_cases hkind : s.current.kind = kind <;>
          simp [serve, expect, next, Suffix.serve, Suffix.answer, suffix, test_eq, hkind]
    | isEnd => simp only [serve, Suffix.serve, Suffix.answer, h.isEnd_eq]
    | _ => rfl
  · rw [serve_snd, Suffix.serve]
    have hhead : s.suffix.head = s.current := rfl
    rw [hhead]
    split
    · exact s.suffix_advance
    · rfl

theorem cursor_serve (h : s.Sealed) (r : Request) :
    (s.serve r).2.cursor.val =
      s.cursor.val + if r.takes s.current = true ∧ s.isEnd = false then 1 else 0 := by
  have hend : s.isEnd = false ↔ s.cursor.val + 1 < s.size := by
    rw [← Bool.not_eq_true, h.isEnd_iff]
    have hlt : s.cursor.val < s.size := s.cursor.isLt
    omega
  rw [serve_snd]
  by_cases htakes : r.takes s.current = true
  · rw [if_pos htakes, cursor_advance]
    by_cases hlt : s.cursor.val + 1 < s.size
    · rw [if_pos hlt, if_pos ⟨htakes, hend.mpr hlt⟩]
    · rw [if_neg hlt, if_neg fun hand => hlt (hend.mp hand.2)]
      rfl
  · rw [if_neg htakes, if_neg fun hand => htakes hand.1]
    rfl

/-! ### Any number of requests -/

variable {rs : List Request}

theorem toList_serveAll (s : TokenStream) (rs : List Request) :
    (s.serveAll rs).2.toList = s.toList := by
  induction rs generalizing s with
  | nil => rfl
  | cons r rs ih => exact (ih _).trans (s.toList_serve r)

theorem Sealed.serve (h : s.Sealed) (r : Request) : (s.serve r).2.Sealed := by
  rw [Sealed, toList_serve]
  exact h

theorem Sealed.serveAll (h : s.Sealed) (rs : List Request) : (s.serveAll rs).2.Sealed := by
  rw [Sealed, toList_serveAll]
  exact h

/-- Requests come to the same on the stream and on the list in front of the reader. -/
theorem suffix_serveAll (h : s.Sealed) (rs : List Request) :
    (s.serveAll rs).1 = (s.suffix.serveAll s.toList rs).1 ∧
      (s.serveAll rs).2.suffix = (s.suffix.serveAll s.toList rs).2 := by
  induction rs generalizing s with
  | nil => exact ⟨rfl, rfl⟩
  | cons r rs ih =>
      obtain ⟨hanswer, hsuffix⟩ := suffix_serve h r
      have hrest := ih (h.serve r)
      rw [toList_serve, hsuffix] at hrest
      exact ⟨congrArg₂ List.cons hanswer hrest.1, hrest.2⟩

theorem cursor_le_serveAll (h : s.Sealed) (rs : List Request) :
    s.cursor.val ≤ (s.serveAll rs).2.cursor.val := by
  induction rs generalizing s with
  | nil => exact Nat.le_refl _
  | cons r rs ih =>
      have hstep : s.cursor.val ≤ (s.serve r).2.cursor.val := by
        rw [cursor_serve h]
        exact Nat.le_add_right _ _
      exact Nat.le_trans hstep (ih (h.serve r))

/-! ### Reading on to the end -/

theorem Sealed.advance_eq (h : s.Sealed) (hend : s.isEnd = true) : s.advance = s := by
  have hcursor := h.isEnd_iff.mp hend
  exact dif_neg fun hlt => Nat.ne_of_lt hlt hcursor

/-- At the end, asking for the next token returns the current one again and again. -/
theorem Sealed.serveAll_next (h : s.Sealed) (hend : s.isEnd = true) (n : Nat) :
    s.serveAll (List.replicate n .next) = (List.replicate n (.token s.current), s) := by
  induction n with
  | zero => rfl
  | succ n ih =>
      have hserve : s.serve .next = (.token s.current, s) := by
        rw [TokenStream.serve, next, h.advance_eq hend]
      rw [List.replicate_succ, TokenStream.serveAll, hserve, ih]
      rfl

theorem serveAll_next_snd (s : TokenStream) (n : Nat) :
    (s.serveAll (List.replicate n .next)).2 = advance^[n] s := by
  induction n generalizing s with
  | zero => rfl
  | succ n ih => exact ih s.advance

theorem cursor_iterate (s : TokenStream) (n : Nat) :
    (advance^[n] s).cursor.val = min (s.cursor.val + n) (s.size - 1) := by
  induction n generalizing s with
  | zero =>
      have hlt : s.cursor.val < s.size := s.cursor.isLt
      rw [Function.iterate_zero_apply]
      omega
  | succ n ih =>
      have hlt : s.cursor.val < s.size := s.cursor.isLt
      have hsize : s.advance.size = s.size := by
        rw [size_eq, size_eq, toList_advance]
      rw [Function.iterate_succ_apply, ih, hsize, cursor_advance]
      split <;> omega

end TokenStream

/-- Addition of words that stays at the largest one where the sum is larger. -/
def saturatingAdd (a b : Nat) : Nat :=
  min (a + b) (Json.wordLimit - 1)

namespace TokenStream

/-- Some requests, one after another, leave the stream `t` of the stream `s`. -/
def Leads (s t : TokenStream) : Prop :=
  ∃ rs, (s.serveAll rs).2 = t

/-- Whatever is asked of a stream, one request after another, it is read as a list that only
gets shorter, down to its sentinel `last`. -/
structure ReadsForward (s : TokenStream) (last : Token) : Prop where
  /-- The answers, and what is then in front of the reader, are those of the list. -/
  refines : ∀ rs, (s.serveAll rs).1 = (s.suffix.serveAll s.toList rs).1 ∧
    (s.serveAll rs).2.suffix = (s.suffix.serveAll s.toList rs).2
  /-- No request changes the tokens. -/
  tokens : ∀ {t}, s.Leads t → t.toList = s.toList
  /-- The cursor is on one of the tokens, and that is the current one. -/
  inside : ∀ {t}, s.Leads t →
    t.cursor.val < s.toList.length ∧ s.toList[t.cursor.val]? = some t.current
  /-- Where words hold the number of tokens, they hold the place behind the cursor too, and
  looking ahead by any word finds the token that it would find without a limit. -/
  in_words : ∀ {t}, s.Leads t → s.size < Json.wordLimit → ∀ n < Json.wordLimit,
    t.cursor.val + 1 < Json.wordLimit ∧
      s.toList[min (saturatingAdd t.cursor.val n) (s.size - 1)]? = some (t.lookAhead n)
  /-- The cursor never goes back. -/
  forward : ∀ {t u}, s.Leads t → t.Leads u → t.cursor.val ≤ u.cursor.val
  /-- It moves by one if the request takes the current token, unless that is the sentinel;
  otherwise the stream is what it was. -/
  moves : ∀ {t}, s.Leads t → ∀ r,
    if r.takes t.current = true ∧ t.isEnd = false then
      (t.serve r).2.cursor.val = t.cursor.val + 1
    else (t.serve r).2 = t
  /-- A token that is not of the kind expected is refused, and the error cites it. -/
  refuses : ∀ {t}, s.Leads t → ∀ kind, t.current.kind ≠ kind →
    ∃ e : SyntaxError, t.serve (.expect kind) = (.refused e, t) ∧ e.kind = t.current.kind ∧
      e.value = t.current.value ∧ e.position = t.current.position
  /-- Looking ahead finds what so many calls for the next token lead to. -/
  peeks : ∀ {t}, s.Leads t → ∀ n,
    t.lookAhead n = (t.serveAll (List.replicate n .next)).2.current
  /-- The end is reached on the last token, and on no other. -/
  ends : ∀ {t}, s.Leads t → (t.isEnd = true ↔ t.cursor.val + 1 = s.toList.length)
  /-- Called until the end is reached, `next` returns every token in front of the sentinel
  once, in order, and from there on the sentinel. -/
  replays : ∃ n t, s.serveAll (List.replicate n .next) = (s.toList.dropLast.map .token, t) ∧
    t.isEnd = true ∧ (∀ m < n, (s.serveAll (List.replicate m .next)).2.isEnd = false) ∧
    ∀ m, t.serveAll (List.replicate m .next) = (List.replicate m (.token last), t)

variable {s t : TokenStream} {last : Token}

theorem Leads.toList (h : s.Leads t) : t.toList = s.toList := by
  obtain ⟨rs, rfl⟩ := h
  exact s.toList_serveAll rs

theorem Leads.sealed (h : s.Leads t) (hs : s.Sealed) : t.Sealed := by
  obtain ⟨rs, rfl⟩ := h
  exact hs.serveAll rs

theorem Leads.size_eq (h : s.Leads t) : t.size = s.size :=
  congrArg List.length h.toList

/-- The tokens in front of the sentinel are returned one after another, and then the sentinel
for ever. -/
theorem Sealed.replays {ts : List Token} (h : s.Sealed) (hcursor : s.cursor.val = 0)
    (hlist : s.toList = ts ++ [last]) :
    ∃ n t, s.serveAll (List.replicate n .next) = (s.toList.dropLast.map .token, t) ∧
      t.isEnd = true ∧ (∀ m < n, (s.serveAll (List.replicate m .next)).2.isEnd = false) ∧
        ∀ m, t.serveAll (List.replicate m .next) = (List.replicate m (.token last), t) := by
  have hsuffix : s.suffix.head :: s.suffix.tail = ts ++ [last] := by
    have hget := s.getElem?_cursor
    have hdrop : s.toList.drop s.cursor.val = s.toList := by rw [hcursor, List.drop_zero]
    rw [← hlist, ← hdrop, List.drop_eq_getElem?_toList_append, hget]
    rfl
  have hsize : s.size = ts.length + 1 := by
    rw [TokenStream.size_eq, hlist, List.length_append, List.length_singleton]
  obtain ⟨hanswers, hleft⟩ := suffix_serveAll h (List.replicate ts.length .next)
  rw [Suffix.serveAll_next _ hsuffix] at hanswers hleft
  -- the cursor tells where the end is reached, and the list what has been returned till then
  have hend : ∀ m, (s.serveAll (List.replicate m .next)).2.isEnd = true ↔ ts.length ≤ m := by
    intro m
    have hsealed := h.serveAll (List.replicate m .next)
    rw [hsealed.isEnd_iff, TokenStream.size_eq, toList_serveAll, ← TokenStream.size_eq,
      serveAll_next_snd, cursor_iterate, hcursor, hsize]
    omega
  refine ⟨ts.length, (s.serveAll (List.replicate ts.length .next)).2, ?_, ?_, ?_, ?_⟩
  · rw [hlist, List.dropLast_concat]
    exact Prod.ext hanswers rfl
  · exact (hend _).mpr (Nat.le_refl _)
  · intro m hm
    rw [← Bool.not_eq_true, hend]
    exact Nat.not_le_of_lt hm
  · intro m
    rw [(h.serveAll _).serveAll_next ((hend _).mpr (Nat.le_refl _))]
    have hcurrent : (s.serveAll (List.replicate ts.length .next)).2.current = last :=
      congrArg Suffix.head hleft
    rw [hcurrent]

theorem Sealed.readsForward {ts : List Token} (h : s.Sealed) (hcursor : s.cursor.val = 0)
    (hlist : s.toList = ts ++ [last]) : s.ReadsForward last where
  refines := suffix_serveAll h
  tokens := Leads.toList
  inside := by
    intro t ht
    have hlt : t.cursor.val < t.size := t.cursor.isLt
    rw [← ht.toList]
    exact ⟨hlt, t.getElem?_cursor⟩
  in_words := by
    intro t ht hsize n hn
    have hlt : t.cursor.val < t.size := t.cursor.isLt
    rw [ht.size_eq] at hlt
    have hindex : min (saturatingAdd t.cursor.val n) (s.size - 1) =
        min (t.cursor.val + n) (t.size - 1) := by
      rw [ht.size_eq, saturatingAdd]
      omega
    rw [hindex, ← ht.toList]
    exact ⟨by omega, t.getElem?_lookAhead n⟩
  forward := by
    rintro t u ht ⟨rs, rfl⟩
    exact cursor_le_serveAll (ht.sealed h) rs
  moves := by
    intro t ht r
    have hsealed := ht.sealed h
    split
    · rename_i hmoves
      rw [cursor_serve hsealed, if_pos hmoves]
    · rename_i hstays
      rw [serve_snd]
      split
      · rename_i htakes
        exact hsealed.advance_eq (Bool.of_not_eq_false fun hend => hstays ⟨htakes, hend⟩)
      · rfl
  refuses := by
    intro t _ kind hkind
    refine ⟨SyntaxError.ofToken t.current, ?_, rfl, rfl, rfl⟩
    rw [TokenStream.serve, expect, test_eq, decide_eq_false hkind]
    rfl
  peeks := by
    intro t _ n
    rw [lookAhead_eq_iterate, serveAll_next_snd]
  ends := by
    intro t ht
    rw [(ht.sealed h).isEnd_iff, ht.size_eq, TokenStream.size_eq]
  replays := h.replays hcursor hlist

end TokenStream

variable {query : String} {s : TokenStream}

/-- The sentinel is the last token of a query, and no other is one. -/
theorem sealed_of_tokenize (h : tokenize query = .ok s) : s.Sealed := by
  obtain ⟨rfl, last, hpasses, hblank⟩ := tokenize_eq_ok_iff.mp h
  refine ⟨_, query.utf8ByteSize, TokenStream.toList_close _ _, ?_⟩
  intro t ht
  obtain ⟨tile, htile, rfl⟩ := List.mem_map.mp ht
  exact (tiling_of_passes hpasses hblank).not_ending tile htile

/--
**The stream of a query is read as a list that only gets shorter.**  Whatever is asked of it,
and in whatever order, the tokens stay as they are and the cursor goes forward, one token at a
time, to the sentinel and no further; every answer is that of the list of tokens from the
cursor on.
-/
theorem tokenize_reads_forward (h : tokenize query = .ok s) :
    s.ReadsForward (Token.sentinel query.utf8ByteSize) := by
  have hsealed := sealed_of_tokenize h
  obtain ⟨rfl, -⟩ := tokenize_eq_ok_iff.mp h
  exact hsealed.readsForward rfl (TokenStream.toList_close _ _)

/-- The comparison in `a=1` is a token like the others to a reader. -/
theorem tokenize_reads_forward_comparison :
    tokenize "a=1" = .ok (.close [⟨.string, "a", 0⟩, ⟨.operator, "eq", 1⟩,
      ⟨.integer, "1", 2⟩] 3) ∧
    TokenStream.ReadsForward (.close [⟨.string, "a", 0⟩, ⟨.operator, "eq", 1⟩,
      ⟨.integer, "1", 2⟩] 3) (Token.sentinel 3) := by
  have h : tokenize "a=1" = .ok (.close [⟨.string, "a", 0⟩, ⟨.operator, "eq", 1⟩,
      ⟨.integer, "1", 2⟩] 3) := by
    decide +kernel
  exact ⟨h, tokenize_reads_forward h⟩

end ResourceQuery

/-
How far a span extends.

`Span.Written` says what a span is written as, and `Span.Longest` that no longer one
starts at the same place.  The span that is read is the one longest of those written
there (`Span.text_read_eq_iff`): characters and escapes are taken one at a time, and a
colon only together with the digit behind it, so a span is never cut short to be
continued otherwise.

A `%` ends a span exactly if it opens no escape.  Then there is at most one hexadecimal
digit behind it.
-/
import ResourceQuery.Proofs.Literal.Encoding

namespace ResourceQuery

/-- What stands behind the day: literal characters, escapes, and colons, each with a digit behind
it.  The digit may be escaped if `hidden` says so. -/
inductive TimePart (hidden : Bool) : List Char → Prop
  | nil : TimePart hidden []
  | literal {c : Char} {cs : List Char} (literal : isLiteral c = true)
      (tail : TimePart hidden cs) : TimePart hidden (c :: cs)
  | escape {high low : Char} {cs : List Char} (high_digit : isHexDigit high = true)
      (low_digit : isHexDigit low = true) (tail : TimePart hidden cs) :
      TimePart hidden ('%' :: high :: low :: cs)
  | colon {d : Char} {cs : List Char} (digit : d.isDigit = true) (tail : TimePart hidden cs) :
      TimePart hidden (':' :: d :: cs)
  | hiddenDigit {d : Char} {cs : List Char} (allowed : hidden = true) (digit : d.isDigit = true)
      (tail : TimePart hidden cs) : TimePart hidden (':' :: '%' :: '3' :: d :: cs)

/-- What a span is written as: literal characters and escapes, or a day and what stands
behind it, colons included. -/
inductive Span.Written : List Char → Prop
  | plain {raw : List Char} {bs : List UInt8} (head : raw.head? ≠ some '-')
      (chars : ∀ c ∈ raw, continuesLiteral c = true) (encodes : Encodes raw bs) : Written raw
  | dated {day time : List Char} (day_written : Date.Day day) (time_part : TimePart false time) :
      Written (day ++ time)

/-- No longer span starts where `raw` does. -/
def Span.Longest (raw rest : List Char) : Prop :=
  ∀ more after, rest = more ++ after → Written (raw ++ more) → more = []

/-- A whole span stands in front of `rest`, and no `%` ends it. -/
structure Span.Complete (raw rest : List Char) : Prop where
  written : Written raw
  longest : Longest raw rest
  ends : rest.head? ≠ some '%'

variable {raw rest cs digits behind : List Char} {c : Char} {hidden timed : Bool}

namespace TimePart

theorem of_literals (hraw : ∀ c ∈ raw, isLiteral c = true) (h : TimePart hidden cs) :
    TimePart hidden (raw ++ cs) := by
  induction raw with
  | nil => exact h
  | cons c raw ih =>
      exact .literal (hraw c List.mem_cons_self) (ih fun d hd => hraw d (List.mem_cons_of_mem c hd))

theorem tail_of_isDigit (hc : c.isDigit = true) (h : TimePart hidden (c :: cs)) :
    TimePart hidden cs := by
  cases h with
  | literal _ tail => exact tail
  | escape => cases hc
  | colon => cases hc
  | hiddenDigit => cases hc

/-- A span that opens like a date takes all of it. -/
theorem exists_pieces_append (h : TimePart false cs) :
    ∃ ps, ps.flatMap Piece.text = cs ∧
      ∀ rest, Span.piecesOf true (cs ++ rest) = ps ++ Span.piecesOf true rest := by
  induction h with
  | nil => exact ⟨[], rfl, fun _ => rfl⟩
  | @literal c cs literal _ ih =>
      obtain ⟨ps, rfl, hps⟩ := ih
      refine ⟨.raw c :: ps, rfl, fun rest => ?_⟩
      rw [List.cons_append, Span.piecesOf_literal literal, hps, List.cons_append]
  | @escape high low cs high_digit low_digit _ ih =>
      obtain ⟨ps, rfl, hps⟩ := ih
      refine ⟨.escape high low :: ps, rfl, fun rest => ?_⟩
      rw [List.cons_append, List.cons_append, List.cons_append,
        Span.piecesOf_escape high_digit low_digit, hps, List.cons_append]
  | @colon d cs digit _ ih =>
      obtain ⟨ps, rfl, hps⟩ := ih
      refine ⟨.raw ':' :: .raw d :: ps, rfl, fun rest => ?_⟩
      rw [List.cons_append, List.cons_append, Span.piecesOf_cons (by decide),
        if_pos (by simp [Span.digitFollows, digit]),
        Span.piecesOf_literal (isLiteral_of_isDigit digit), hps, List.cons_append,
        List.cons_append]
  | hiddenDigit allowed => cases allowed

theorem continuesLiteral_or (h : TimePart false cs) :
    ∀ c ∈ cs, continuesLiteral c = true ∨ c = ':' := by
  obtain ⟨ps, rfl, hps⟩ := h.exists_pieces_append
  exact Span.continuesLiteral_or_of_piecesOf ((hps []).trans (List.append_nil ps))

/-- What a span takes is what may stand behind a day. -/
theorem of_piecesOf (timed : Bool) (cs : List Char) :
    TimePart false ((Span.piecesOf timed cs).flatMap Piece.text) := by
  fun_induction Span.piecesOf timed cs with
  | case1 => exact .nil
  | case2 high low cs hhex ih =>
      rw [Bool.and_eq_true] at hhex
      exact .escape hhex.1 hhex.2 ih
  | case3 => exact .nil
  | case4 c cs _ hc ih =>
      simp only [Bool.or_eq_true, Bool.and_eq_true, decide_eq_true_eq] at hc
      rcases hc with hc | ⟨⟨-, rfl⟩, hdigit⟩
      · exact .literal hc ih
      · -- the digit behind the colon is a piece of its own
        cases cs with
        | nil => cases hdigit
        | cons d cs =>
            rw [Span.piecesOf_literal (isLiteral_of_isDigit hdigit)] at ih ⊢
            exact .colon hdigit (ih.tail_of_isDigit hdigit)
  | case5 => exact .nil

end TimePart

namespace Span

/-! ### What is read is the longest of what is written -/

theorem Written.exists_pieces (h : Written raw) : ∃ ps, ps.flatMap Piece.text = raw ∧
    ∀ rest, (read (raw ++ rest)).pieces =
      ps ++ piecesOf (Date.opensWith Date.dayShape (raw ++ rest)) rest := by
  cases h with
  | plain head chars encodes =>
      obtain ⟨ps, htext, -, hps⟩ := exists_pieces_append encodes chars
      exact ⟨ps, htext, fun rest => hps _ rest⟩
  | @dated day time day_written time_part =>
      obtain ⟨ps, htext, hps⟩ :=
        (TimePart.of_literals day_written.isLiteral time_part).exists_pieces_append
      refine ⟨ps, htext, fun rest => ?_⟩
      have hopens : Date.opensWith Date.dayShape (day ++ time ++ rest) = true := by
        rw [List.append_assoc]
        exact day_written.opensWith
      rw [read, hopens]
      exact hps rest

/-- Behind what is written as a span, the span that is read goes on with the pieces there. -/
theorem Written.text_read (h : Written raw) (rest : List Char) : (read (raw ++ rest)).text =
    raw ++ (piecesOf (Date.opensWith Date.dayShape (raw ++ rest)) rest).flatMap Piece.text := by
  obtain ⟨ps, htext, hps⟩ := h.exists_pieces
  rw [text, hps, List.flatMap_append, htext]

theorem written_text_read (hhead : cs.head? ≠ some '-') : Written (read cs).text := by
  cases hopens : Date.opensWith Date.dayShape cs with
  | true =>
      obtain ⟨day, rest, rfl, hday⟩ := Date.opensWith_dayShape_iff.mp hopens
      have htext : (read (day ++ rest)).text = day ++ (piecesOf true rest).flatMap Piece.text := by
        rw [read, hopens, text, piecesOf_literals hday.isLiteral, List.flatMap_append]
        exact congrArg (· ++ _) (text_ofChars day)
      rw [htext]
      exact .dated hday (.of_piecesOf true rest)
  | false =>
      obtain ⟨rest, hrest⟩ := text_read_prefix cs
      have hpieces : piecesOf false ((read cs).text ++ rest) = (read cs).pieces := by
        rw [hrest, read, hopens]
      refine .plain ?_ (fun c hc => ?_) (encodes_of_piecesOf hpieces)
      · intro hminus
        rw [← hrest, List.head?_append, hminus] at hhead
        exact hhead rfl
      · rcases continuesLiteral_or_timed hpieces c hc with hc | ⟨htimed, -⟩
        · exact hc
        · cases htimed

/-- **A span is read as the longest of those written at its place.** -/
theorem text_read_eq_iff (hhead : (raw ++ rest).head? ≠ some '-') :
    (read (raw ++ rest)).text = raw ↔ Written raw ∧ Longest raw rest := by
  constructor
  · intro h
    refine ⟨h ▸ written_text_read hhead, ?_⟩
    rintro more after rfl hwritten
    have htext := hwritten.text_read after
    rw [List.append_assoc, h, List.append_assoc, List.self_eq_append_right] at htext
    exact (List.append_eq_nil_iff.mp htext).1
  · rintro ⟨hwritten, hlongest⟩
    have htext := hwritten.text_read rest
    obtain ⟨after, hafter⟩ := text_piecesOf_prefix
      (Date.opensWith Date.dayShape (raw ++ rest)) rest
    rw [hlongest _ after hafter.symm (htext ▸ written_text_read hhead), List.append_nil] at htext
    exact htext

theorem drop_length_read (h : (read (raw ++ rest)).text = raw) :
    (raw ++ rest).drop (read (raw ++ rest)).length = rest := by
  rw [length, h, List.drop_left]

theorem encodes_text_read (cs : List Char) : Encodes (read cs).text (read cs).bytes :=
  encodes_of_piecesOf (piecesOf_text_read cs)

/-! ### Whole spans -/

theorem complete_text_read (hhead : cs.head? ≠ some '-')
    (hends : (cs.drop (read cs).length).head? ≠ some '%') :
    Complete (read cs).text (cs.drop (read cs).length) := by
  have htext : (read ((read cs).text ++ cs.drop (read cs).length)).text = (read cs).text := by
    rw [text_append_drop]
  obtain ⟨hwritten, hlongest⟩ :=
    (text_read_eq_iff (by rwa [text_append_drop])).mp htext
  exact ⟨hwritten, hlongest, hends⟩

/-- A span starts like a literal. -/
theorem Written.head_cons (h : Written (c :: cs)) : continuesLiteral c = true ∧ c ≠ '-' := by
  generalize hraw : c :: cs = raw at h
  cases h with
  | plain head chars =>
      subst hraw
      exact ⟨chars c List.mem_cons_self, by simpa using head⟩
  | dated day_written =>
      obtain ⟨d, ds, rfl, hdigit⟩ := day_written.exists_cons
      obtain ⟨rfl, -⟩ := List.cons.inj hraw
      refine ⟨continuesLiteral_of_isDigit hdigit, ?_⟩
      rintro rfl
      cases hdigit

/-! ### Where a `%` ends a span -/

/-- A `%` opens no escape exactly if at most one hexadecimal digit stands behind it. -/
theorem piecesOf_percent_eq_nil_iff (hdigits : ∀ c ∈ digits, isHexDigit c = true)
    (hbehind : Stops isHexDigit behind) :
    piecesOf timed ('%' :: (digits ++ behind)) = [] ↔ digits.length ≤ 1 := by
  match digits, behind with
  | [], [] =>
      have hnone : piecesOf timed ['%'] = [] := by cases timed <;> rfl
      simp [hnone]
  | [], [c] =>
      have hnone : piecesOf timed ['%', c] = [] := by cases timed <;> rfl
      simp [hnone]
  | [], c :: d :: behind =>
      have hc := Stops.cons_iff.mp hbehind
      have hnone : piecesOf timed ('%' :: c :: d :: behind) = [] := piecesOf_percent (by simp [hc])
      simp [hnone]
  | [high], [] =>
      have hnone : piecesOf timed ['%', high] = [] := by cases timed <;> rfl
      simp [hnone]
  | [high], c :: behind =>
      have hc := Stops.cons_iff.mp hbehind
      have hnone : piecesOf timed ('%' :: high :: c :: behind) = [] :=
        piecesOf_percent (by simp [hc])
      simp [hnone]
  | high :: low :: digits, behind =>
      have hhigh := hdigits high List.mem_cons_self
      have hlow := hdigits low (List.mem_cons_of_mem high List.mem_cons_self)
      rw [List.cons_append, List.cons_append, piecesOf_escape hhigh hlow]
      simp

end Span

end ResourceQuery

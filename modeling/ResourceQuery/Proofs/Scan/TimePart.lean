/-
Escapes in the time part of a text that opens like a date.

Behind a day a span takes colons too, so an escape is seen wherever it stands, and the whole is
one text.  But the digit behind a colon must stand for itself: a colon in front of an escape ends
the span, even if the escape names a digit.  What is then in front of the colon is a text, a date
or a fault, and none of them can have a colon behind it, so the query is refused.  Hence a text
with an escape in its time part is read whole exactly if no colon in it has an escape behind it.
-/
import ResourceQuery.Proofs.Scan.Composition
import ResourceQuery.Proofs.Scan.Escaping
import ResourceQuery.Proofs.Lexeme.Ascii
import ResourceQuery.Proofs.Literal.Extent

namespace ResourceQuery

/-! ### How such a text is written -/

variable {day time u v cs rest raw : List Char} {bs : List UInt8} {hidden : Bool}
  {l : Lexeme} {value : String}

namespace TimePart

/-- Up to the first colon with an escape behind it, no digit behind a colon is escaped. -/
theorem cases_hidden (h : TimePart hidden time) :
    TimePart false time ∨ ∃ u v, TimePart false u ∧ time = u ++ ':' :: '%' :: v := by
  induction h with
  | nil => exact .inl .nil
  | literal literal _ ih =>
      rcases ih with h | ⟨u, v, h, rfl⟩
      · exact .inl (.literal literal h)
      · exact .inr ⟨_, v, .literal literal h, rfl⟩
  | escape high_digit low_digit _ ih =>
      rcases ih with h | ⟨u, v, h, rfl⟩
      · exact .inl (.escape high_digit low_digit h)
      · exact .inr ⟨_, v, .escape high_digit low_digit h, rfl⟩
  | colon digit _ ih =>
      rcases ih with h | ⟨u, v, h, rfl⟩
      · exact .inl (.colon digit h)
      · exact .inr ⟨_, v, .colon digit h, rfl⟩
  | hiddenDigit => exact .inr ⟨[], _, .nil, rfl⟩

/-- Where every colon has its digit behind it, none has an escape. -/
theorem not_infix (h : TimePart false time) : ¬ [':', '%'] <:+: time := by
  have hcons : ∀ {c : Char} {cs : List Char}, [':', '%'] <:+: c :: cs →
      c = ':' ∧ cs.head? = some '%' ∨ [':', '%'] <:+: cs := by
    intro c cs hinfix
    rcases List.infix_cons_iff.mp hinfix with ⟨v, hprefix⟩ | hinfix
    · obtain ⟨rfl, rfl⟩ := List.cons.inj hprefix
      exact .inl ⟨rfl, rfl⟩
    · exact .inr hinfix
  induction h with
  | nil => simp
  | literal literal _ ih =>
      intro hinfix
      rcases hcons hinfix with ⟨rfl, -⟩ | hinfix
      · cases literal
      · exact ih hinfix
  | escape high_digit low_digit _ ih =>
      intro hinfix
      rcases hcons hinfix with ⟨hc, -⟩ | hinfix
      · cases hc
      rcases hcons hinfix with ⟨rfl, -⟩ | hinfix
      · cases high_digit
      rcases hcons hinfix with ⟨rfl, -⟩ | hinfix
      · cases low_digit
      · exact ih hinfix
  | colon digit _ ih =>
      intro hinfix
      rcases hcons hinfix with ⟨-, hd⟩ | hinfix
      · obtain rfl := Option.some.inj hd
        cases digit
      rcases hcons hinfix with ⟨rfl, -⟩ | hinfix
      · cases digit
      · exact ih hinfix
  | hiddenDigit allowed => cases allowed

end TimePart

/-! ### How it is read -/

namespace Lexeme

theorem exists_pieces_of_day (hday : Date.Day day) (hu : TimePart false u)
    (hrest : Span.piecesOf true rest = []) :
    ∃ ps, Span.read (day ++ u ++ rest) = ⟨ps⟩ ∧ ps.flatMap Piece.text = day ++ u := by
  obtain ⟨ps, htext, hps⟩ := (TimePart.of_literals hday.isLiteral hu).exists_pieces_append
  refine ⟨ps, ?_, htext⟩
  have hopens : Date.opensWith Date.dayShape (day ++ u ++ rest) = true := by
    rw [List.append_assoc]
    exact hday.opensWith
  rw [Span.read, hopens, hps, hrest, List.append_nil]

/-- With an escape in it, and none behind a colon, it is one text. -/
theorem Reading.dated (hday : Date.Day day) (htime : TimePart false time) (hescape : '%' ∈ time)
    (hencodes : Encodes (day ++ time) bs) (hvalue : value.toByteArray = bs.toByteArray) :
    Reading (day ++ time) [')'] ⟨.plain .string, value, (day ++ time).length⟩ := by
  have hends : Stops continuesLiteral [')'] := Stops.cons_iff.mpr rfl
  obtain ⟨ps, hspan, htext⟩ :=
    exists_pieces_of_day hday htime (Span.piecesOf_eq_nil hends (by decide))
  have hmem : '%' ∈ ps.flatMap Piece.text := htext ▸ List.mem_append_right day hescape
  rw [← htext] at hspan hencodes ⊢
  have hpieces : Span.piecesOf (Date.opensWith Date.dayShape (ps.flatMap Piece.text ++ [')']))
      (ps.flatMap Piece.text ++ [')']) = ps := congrArg Span.pieces hspan
  have hbytes : ps.flatMap Piece.bytes = bs := (Span.encodes_of_piecesOf hpieces).unique hencodes
  have hhead : (ps.flatMap Piece.text).head? ≠ some '-' := by
    obtain ⟨c, cs, hcons, hdigit⟩ := hday.exists_cons
    rw [htext, hcons]
    intro hminus
    obtain rfl := Option.some.inj hminus
    cases hdigit
  exact @Reading.escaped ⟨ps⟩ [')'] value hhead hspan hends (Span.isEscaped_of_mem hpieces hmem)
    (fromUTF8?_eq_some_iff.mpr (hvalue.trans (congrArg List.toByteArray hbytes.symm)))

/-- In front of a colon with an escape behind it, a date ends at the colon. -/
theorem head?_of_written (hday : Date.Day day) (hu : TimePart false u)
    (htext : raw ++ rest = day ++ u ++ ':' :: '%' :: v) (written : Date.Written raw)
    (ends : Stops continuesLiteral rest) : rest.head? = some ':' := by
  have hfront : (day ++ u ++ [':']) ++ '%' :: v = raw ++ rest := by
    rw [htext]
    simp
  obtain ⟨y, hy, rfl⟩ := exists_front (by simpa using written.no_percent) hfront
  cases y with
  | nil =>
      -- a date ends in its letter, and not in the colon
      obtain ⟨d, hlast, hd⟩ := written.endsInLiteral
      rw [List.append_nil] at hy
      rw [← hy, List.getLast?_concat] at hlast
      obtain rfl := Option.some.inj hlast
      cases hd
  | cons c y =>
      have hmem : c ∈ day ++ u ++ [':'] := hy ▸ List.mem_append_right raw List.mem_cons_self
      have hc := Stops.cons_iff.mp ends
      rw [List.mem_append, List.mem_singleton] at hmem
      rcases hmem with hmem | rfl
      · rcases (TimePart.of_literals hday.isLiteral hu).continuesLiteral_or c hmem with h | rfl
        · rw [h] at hc
          cases hc
        · rfl
      · rfl

/-- In front of a colon with an escape behind it, what is read ends at the colon. -/
theorem Reading.head?_of_day (hday : Date.Day day) (hu : TimePart false u)
    (htext : raw ++ rest = day ++ u ++ ':' :: '%' :: v) (h : Reading raw rest l) :
    rest.head? = some ':' ∧ l.symbol.kind ≠ .typeName := by
  have hopens : Date.opensWith Date.dayShape (raw ++ rest) = true := by
    rw [htext, List.append_assoc]
    exact hday.opensWith
  have hdigit : ∀ {c cs}, raw = c :: cs → c.isDigit = true := by
    rintro c cs rfl
    exact Date.isDigit_of_opensWith_dayShape hopens
  cases h with
  | punctuation h =>
      rw [punctuation?_of_continuesLiteral (continuesLiteral_of_isDigit (hdigit rfl))] at h
      cases h
  | comparison spelling =>
      obtain ⟨c, cs, rfl, hc⟩ := spelling.exists_opens
      rw [opens_of_continuesLiteral (continuesLiteral_of_isDigit (hdigit rfl))] at hc
      cases hc
  | sign h =>
      have hc := hdigit rfl
      rw [sign?_of_continuesLiteral (continuesLiteral_of_isDigit hc) (ne_minus_of_isDigit hc)] at h
      cases h
  | number numeral ends =>
      have hnumber := Number.read?_append numeral ends
      rw [Date.read?_of_opensWith_dayShape hopens] at hnumber
      cases hnumber
  | constant form =>
      obtain ⟨c, word, rfl, -, hc⟩ := Constant.exists_word_of_mem_forms form
      rw [not_isAlpha_of_isDigit (hdigit rfl)] at hc
      cases hc
  | date written ends =>
      have hkind : Kind.date ≠ .typeName := by decide
      exact ⟨head?_of_written hday hu htext written ends, hkind⟩
  | @escaped span rest value head whole =>
      obtain ⟨ps, hspan, hps⟩ := exists_pieces_of_day hday hu
        (show Span.piecesOf true (':' :: '%' :: v) = [] by
          simp [Span.piecesOf_cons, isLiteral, Span.digitFollows])
      rw [← htext, whole] at hspan
      have hraw : span.text = day ++ u := by
        rw [hspan]
        exact hps
      rw [hraw] at htext
      rw [List.append_cancel_left htext]
      refine ⟨rfl, ?_⟩
      rw [kind_textSymbol]
      decide
  | word word =>
      rw [word.opensWith_dayShape] at hopens
      cases hopens

end Lexeme

/-! ### As the second argument of a call -/

open Scan

/-- Behind `eq(a,` the scan goes on among the arguments. -/
theorem tokenize_second_argument (r : String) :
    tokenize ("eq(a," ++ r) = Trace.result
      ⟨[⟨.operator, "eq", 0⟩, ⟨.openParenthesis, "(", 2⟩, ⟨.string, "a", 3⟩, ⟨.comma, ",", 4⟩] ++
        (Scan.run ⟨⟨.arguments, [.arguments]⟩, 5, r.toList⟩).tokens,
        (Scan.run ⟨⟨.arguments, [.arguments]⟩, 5, r.toList⟩).ending⟩ := by
  have hfront : (Scan.start "eq(a,").run =
      ⟨[⟨.operator, "eq", 0⟩, ⟨.openParenthesis, "(", 2⟩, ⟨.string, "a", 3⟩, ⟨.comma, ",", 4⟩],
        .finished ⟨.arguments, [.arguments]⟩ 5⟩ := by
    decide +kernel
  have hdelimited : Delimited "eq(a,".toList := by
    intro c hc
    obtain rfl : ',' = c := by simpa using hc
    rfl
  rw [tokenize_append_eq hdelimited.blind, hfront]
  rfl

theorem passes_dated (hday : Date.Day day) (htime : TimePart false time)
    (hescape : '%' ∈ time) (hencodes : Encodes (day ++ time) bs)
    (hvalue : value.toByteArray = bs.toByteArray) :
    Passes ⟨⟨.arguments, [.arguments]⟩, 5, day ++ time ++ [')']⟩
      [⟨[], day ++ time, ⟨.string, value, 5⟩⟩,
        ⟨[], [')'], ⟨.closeParenthesis, ")", 5 + (day ++ time).length⟩⟩]
      ⟨⟨.afterExpression, []⟩, 6 + (day ++ time).length, []⟩ := by
  have hreading := Lexeme.Reading.dated hday htime hescape hencodes hvalue
  have hclose : Lexeme.Reading [')'] [] (Lexeme.verbatim .closeParenthesis [')']) :=
    .punctuation rfl
  have hlength : byteLength (day ++ time) = (day ++ time).length := hreading.ascii.byteLength
  have hvalue : Advances ⟨⟨.arguments, [.arguments]⟩, 5, day ++ time ++ [')']⟩
      ⟨[], day ++ time, ⟨.string, value, 5⟩⟩
      ⟨⟨.arguments, [.arguments]⟩, 5 + byteLength (day ++ time), [')']⟩ :=
    @Advances.mk _ _ 5 [] _ _ _ nofun hreading rfl
  have hparenthesis : Advances
      ⟨⟨.arguments, [.arguments]⟩, 5 + byteLength (day ++ time), [')']⟩
      ⟨[], [')'], ⟨.closeParenthesis, ")", 5 + byteLength (day ++ time)⟩⟩
      ⟨⟨.afterExpression, []⟩, 5 + byteLength (day ++ time) + 1, []⟩ :=
    @Advances.mk _ _ _ [] _ _ _ nofun hclose rfl
  rw [hlength] at hvalue hparenthesis
  rw [Nat.add_right_comm] at hparenthesis
  exact .cons hvalue (.cons hparenthesis .nil)

theorem Scan.Advances.head?_of_day {s next : Scan} {t : Tile} (hday : Date.Day day)
    (hu : TimePart false u) (htext : s.rest = day ++ u ++ ':' :: '%' :: v)
    (h : Advances s t next) : next.rest.head? = some ':' ∧ t.token.kind ≠ .typeName := by
  obtain @⟨machine, machine', position, blanks, raw, rest, lexeme, blank, reading, -⟩ := h
  obtain rfl : blanks = [] := by
    cases blanks with
    | nil => rfl
    | cons c blanks =>
        obtain ⟨d, ds, rfl, hdigit⟩ := hday.exists_cons
        obtain ⟨rfl, -⟩ := List.cons.inj htext
        have hblank := blank c List.mem_cons_self
        rw [not_isBlank_of_continuesLiteral (continuesLiteral_of_isDigit hdigit)] at hblank
        cases hblank
  exact reading.head?_of_day hday hu htext

/-- A colon with an escape behind it keeps the scan from its end. -/
theorem Scan.ending_ne_of_day {s : Scan} {machine : Machine} {position : Nat}
    (hday : Date.Day day) (hu : TimePart false u) (htext : s.rest = day ++ u ++ ':' :: '%' :: v) :
    s.run.ending ≠ .finished machine position := by
  intro hending
  obtain ⟨last, hpasses, hblank⟩ := exists_passes_of_ending hending
  generalize s.tiles = ts at hpasses
  cases hpasses with
  | nil =>
      have hcolon := hblank ':' (by simp [htext])
      cases hcolon
  | cons step steps =>
      obtain ⟨hcolon, hkind⟩ := step.head?_of_day hday hu htext
      exact hkind (Passes.typeName_of_colon step steps hblank hcolon)

/--
**A text that opens like a date and has an escape in its time part is read whole, unless a
colon in it has an escape behind it**; then the query is refused, even where the escape names
the digit of the time.
-/
theorem tokenize_escaped_time (hday : Date.Day day) (htime : TimePart true time)
    (hescape : '%' ∈ time) (hencodes : Encodes (day ++ time) bs)
    (hvalue : value.toByteArray = bs.toByteArray) :
    (¬ [':', '%'] <:+: time →
      tokenize ("eq(a," ++ String.ofList (day ++ time ++ [')'])) =
        .ok (.close [⟨.operator, "eq", 0⟩, ⟨.openParenthesis, "(", 2⟩, ⟨.string, "a", 3⟩,
          ⟨.comma, ",", 4⟩, ⟨.string, value, 5⟩,
          ⟨.closeParenthesis, ")", 5 + (day ++ time).length⟩] (6 + (day ++ time).length))) ∧
      ([':', '%'] <:+: time →
        ∃ e, tokenize ("eq(a," ++ String.ofList (day ++ time ++ [')'])) = .error e) := by
  rw [tokenize_second_argument, String.toList_ofList]
  rcases htime.cases_hidden with hplain | ⟨u, v, hu, rfl⟩
  · refine ⟨fun _ => ?_, fun hinfix => absurd hinfix hplain.not_infix⟩
    have hpasses := passes_dated hday hplain hescape hencodes hvalue
    have hrun := hpasses.run_of_blank nofun
    have hposition := hpasses.position
    rw [← hposition] at hrun
    rw [hrun]
    rfl
  · refine ⟨fun hinfix => absurd ⟨u, v, by simp⟩ hinfix, fun _ => ?_⟩
    cases hresult : Trace.result _ with
    | error e => exact ⟨e, rfl⟩
    | ok stream =>
        obtain ⟨machine, position, hending, -⟩ := Trace.exists_finished hresult
        have htext : day ++ (u ++ ':' :: '%' :: v) ++ [')'] =
            day ++ u ++ ':' :: '%' :: (v ++ [')']) := by
          simp
        exact absurd hending (Scan.ending_ne_of_day hday hu htext)

/-- An escape is read behind the digit of a time. -/
theorem tokenize_escaped_time_behind_digit :
    Date.Day ['2', '0', '1', '5', '-', '0', '4', '-', '1', '6', 'T'] ∧
      TimePart true ['1', '7', ':', '4', '%', '3', '0'] ∧
      (∃ bs, Encodes (['2', '0', '1', '5', '-', '0', '4', '-', '1', '6', 'T'] ++
          ['1', '7', ':', '4', '%', '3', '0']) bs ∧
        "2015-04-16T17:40".toByteArray = bs.toByteArray) ∧
      tokenize ("eq(a," ++ String.ofList (['2', '0', '1', '5', '-', '0', '4', '-', '1', '6', 'T'] ++
          ['1', '7', ':', '4', '%', '3', '0'] ++ [')'])) =
        .ok (.close [⟨.operator, "eq", 0⟩, ⟨.openParenthesis, "(", 2⟩, ⟨.string, "a", 3⟩,
          ⟨.comma, ",", 4⟩, ⟨.string, "2015-04-16T17:40", 5⟩,
          ⟨.closeParenthesis, ")", 23⟩] 24) := by
  have hday : Date.Day ['2', '0', '1', '5', '-', '0', '4', '-', '1', '6', 'T'] :=
    .mk (List.all_eq_true.mp rfl)
  have htime : TimePart true ['1', '7', ':', '4', '%', '3', '0'] :=
    .literal rfl (.literal rfl (.colon rfl (.escape rfl rfl .nil)))
  have hencodes : ∃ bs, Encodes (['2', '0', '1', '5', '-', '0', '4', '-', '1', '6', 'T'] ++
      ['1', '7', ':', '4', '%', '3', '0']) bs ∧
        "2015-04-16T17:40".toByteArray = bs.toByteArray := by
    refine ⟨[0x32, 0x30, 0x31, 0x35, 0x2d, 0x30, 0x34, 0x2d, 0x31, 0x36, 0x54,
        0x31, 0x37, 0x3a, 0x34, 0x30], ?_, by decide +kernel⟩
    repeat refine .char (by decide) ?_
    exact .escape rfl rfl .nil
  obtain ⟨bs, hbs, hvalue⟩ := hencodes
  exact ⟨hday, htime, ⟨bs, hbs, hvalue⟩,
    (tokenize_escaped_time hday htime (by decide) hbs hvalue).1 (by decide)⟩

/-- **The digit behind the colon of a time is not read where it is escaped**, though what
stands there is a digit to whoever wrote it. -/
theorem tokenize_hidden_digit :
    Date.Day ['2', '0', '1', '5', '-', '0', '4', '-', '1', '6', 'T'] ∧
      TimePart true ['1', '7', ':', '%', '3', '0'] ∧
      (∃ bs, Encodes (['2', '0', '1', '5', '-', '0', '4', '-', '1', '6', 'T'] ++
          ['1', '7', ':', '%', '3', '0']) bs ∧
        "2015-04-16T17:0".toByteArray = bs.toByteArray) ∧
      tokenize ("eq(a," ++ String.ofList (['2', '0', '1', '5', '-', '0', '4', '-', '1', '6', 'T'] ++
          ['1', '7', ':', '%', '3', '0'] ++ [')'])) =
        .error ⟨.incompleteDate "2015-04-16T17:", 5⟩ := by
  refine ⟨.mk (List.all_eq_true.mp rfl), .literal rfl (.literal rfl (.hiddenDigit rfl rfl .nil)), ?_,
    by decide +kernel⟩
  refine ⟨[0x32, 0x30, 0x31, 0x35, 0x2d, 0x30, 0x34, 0x2d, 0x31, 0x36, 0x54,
        0x31, 0x37, 0x3a, 0x30], ?_, by decide +kernel⟩
  repeat refine .char (by decide) ?_
  exact .escape rfl rfl .nil

end ResourceQuery

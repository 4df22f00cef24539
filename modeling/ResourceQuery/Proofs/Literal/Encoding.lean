/-
The bytes that a text with escapes stands for.

`Encodes` says what a text means without reading it as a span: a character stands
for its own bytes, an escape for the byte it names.  A span means just that of the
text it is written as; and a text that is literal but for its escapes is read as one
span, with whatever it encodes as its bytes.
-/
import ResourceQuery.Proofs.Literal.Span

namespace ResourceQuery

/-- A text stands for bytes: each character for its own, each escape for the one its
two digits name. -/
inductive Encodes : List Char → List UInt8 → Prop
  | nil : Encodes [] []
  | char {c : Char} {cs : List Char} {bs : List UInt8} (ne : c ≠ '%') (tail : Encodes cs bs) :
      Encodes (c :: cs) (String.utf8EncodeChar c ++ bs)
  | escape {high low : Char} {cs : List Char} {bs : List UInt8}
      (high_digit : isHexDigit high = true) (low_digit : isHexDigit low = true)
      (tail : Encodes cs bs) :
      Encodes ('%' :: high :: low :: cs) (UInt8.ofNat (16 * hexValue high + hexValue low) :: bs)

variable {cs rest : List Char} {bs bs' : List UInt8} {ps : List Piece} {timed : Bool} {v : String}

theorem isAlphanum_of_isHexDigit {c : Char} (h : isHexDigit c = true) : c.isAlphanum = true := by
  simp only [isHexDigit, Bool.or_eq_true, Bool.and_eq_true, decide_eq_true_eq, Char.le_def,
    UInt32.le_iff_toNat_le] at h
  show ((decide ('A'.val ≤ c.val ∧ c.val ≤ 'Z'.val) ||
    (decide ('a'.val ≤ c.val) && decide (c.val ≤ 'z'.val))) || c.isDigit) = true
  simp only [Bool.or_eq_true, Bool.and_eq_true, decide_eq_true_eq, UInt32.le_iff_toNat_le]
  have ha : 'a'.val.toNat = 97 := rfl
  have hf : 'f'.val.toNat = 102 := rfl
  have hz : 'z'.val.toNat = 122 := rfl
  have hA : 'A'.val.toNat = 65 := rfl
  have hF : 'F'.val.toNat = 70 := rfl
  have hZ : 'Z'.val.toNat = 90 := rfl
  rcases h with (hdigit | hlower) | hupper
  · exact .inr hdigit
  · exact .inl (.inr (by omega))
  · exact .inl (.inl (by omega))

theorem isLiteral_of_isHexDigit {c : Char} (h : isHexDigit c = true) : isLiteral c = true := by
  simp [isLiteral, isAlphanum_of_isHexDigit h]

theorem encodes_of_ne (h : '%' ∉ cs) : Encodes cs (cs.flatMap String.utf8EncodeChar) := by
  induction cs with
  | nil => exact .nil
  | cons c cs ih =>
      rw [List.mem_cons, not_or] at h
      exact .char (Ne.symm h.1) (ih h.2)

/-- A text encodes only one list of bytes. -/
theorem Encodes.unique (h : Encodes cs bs) (h' : Encodes cs bs') : bs = bs' := by
  induction h generalizing bs' with
  | nil =>
      cases h'
      rfl
  | char ne _ ih =>
      cases h' with
      | char _ tail => rw [ih tail]
      | escape => exact absurd rfl ne
  | escape _ _ _ ih =>
      cases h' with
      | char ne _ => exact absurd rfl ne
      | escape _ _ tail => rw [ih tail]

namespace Span

/-- What is read as a span encodes the bytes of the span. -/
theorem encodes_of_piecesOf (h : piecesOf timed (ps.flatMap Piece.text ++ rest) = ps) :
    Encodes (ps.flatMap Piece.text) (ps.flatMap Piece.bytes) := by
  induction ps with
  | nil => exact .nil
  | cons p ps ih =>
      have htail := ih (piecesOf_tail h)
      rcases piecesOf_eq_cons h with ⟨c, cs, rfl, -, -, hc⟩ |
        ⟨high, low, cs, rfl, -, -, hhigh, hlow⟩
      · refine .char ?_ htail
        rcases hc with hc | ⟨-, rfl, -⟩
        · exact ne_percent_of_isLiteral hc
        · decide
      · exact .escape hhigh hlow htail

/-- A span is written in literal characters and escapes, and a timed one in colons too. -/
theorem continuesLiteral_or_timed (h : piecesOf timed (ps.flatMap Piece.text ++ rest) = ps) :
    ∀ c ∈ ps.flatMap Piece.text, continuesLiteral c = true ∨ timed = true ∧ c = ':' := by
  induction ps with
  | nil => intro c hc; cases hc
  | cons p ps ih =>
      intro d hd
      rw [List.flatMap_cons, List.mem_append] at hd
      rcases hd with hd | hd
      · rcases piecesOf_eq_cons h with ⟨c, cs, rfl, -, -, hc⟩ |
          ⟨high, low, cs, rfl, -, -, hhigh, hlow⟩
        · obtain rfl : d = c := List.mem_singleton.mp hd
          rcases hc with hc | ⟨htimed, hc, -⟩
          · exact .inl (continuesLiteral_of_isLiteral hc)
          · exact .inr ⟨htimed, hc⟩
        · simp only [Piece.text, List.mem_cons, List.not_mem_nil, or_false] at hd
          rcases hd with rfl | rfl | rfl
          · exact .inl rfl
          · exact .inl (continuesLiteral_of_isLiteral (isLiteral_of_isHexDigit hhigh))
          · exact .inl (continuesLiteral_of_isLiteral (isLiteral_of_isHexDigit hlow))
      · exact ih (piecesOf_tail h) d hd

theorem continuesLiteral_or_of_piecesOf (h : piecesOf timed (ps.flatMap Piece.text ++ rest) = ps) :
    ∀ c ∈ ps.flatMap Piece.text, continuesLiteral c = true ∨ c = ':' :=
  fun c hc => (continuesLiteral_or_timed h c hc).imp_right And.right

/-- A span is escaped where a `%` is written. -/
theorem isEscaped_of_mem (h : piecesOf timed (ps.flatMap Piece.text ++ rest) = ps)
    (hmem : '%' ∈ ps.flatMap Piece.text) : ps.any Piece.isEscape = true := by
  induction ps with
  | nil => cases hmem
  | cons p ps ih =>
      rw [List.any_cons, Bool.or_eq_true]
      rcases piecesOf_eq_cons h with ⟨c, cs, rfl, -, -, hc⟩ | ⟨high, low, cs, rfl, -⟩
      · have hne : '%' ≠ c := by
          rintro rfl
          rcases hc with hc | ⟨-, hc, -⟩ <;> cases hc
        have htail : '%' ∈ ps.flatMap Piece.text := by
          simpa [Piece.text, hne] using hmem
        exact .inr (ih (piecesOf_tail h) htail)
      · exact .inl rfl

theorem mem_of_isEscaped {span : Span} (h : span.isEscaped = true) : '%' ∈ span.text := by
  obtain ⟨p, hp, hescape⟩ := List.any_eq_true.mp h
  cases p with
  | raw c => cases hescape
  | escape high low => exact List.mem_flatMap.mpr ⟨_, hp, List.mem_cons_self⟩

/-- Where no `%` is written there is no escape. -/
theorem escapeFree_of_not_mem (h : '%' ∉ cs) : EscapeFree timed cs := by
  refine ⟨Bool.eq_false_iff.mpr fun hescaped => ?_, fun hhead => ?_⟩
  · have hmem : '%' ∈ (⟨piecesOf timed cs⟩ : Span).text := mem_of_isEscaped hescaped
    have hfront := text_piecesOf_prefix timed cs
    exact h (hfront.subset hmem)
  · exact h (List.mem_of_mem_drop (List.mem_of_mem_head? hhead))

/-- A span ends in a literal character: a colon in it has a digit behind it. -/
theorem endsInLiteral_of_piecesOf {p : Piece} (hends : Stops continuesLiteral rest)
    (h : piecesOf timed ((p :: ps).flatMap Piece.text ++ rest) = p :: ps) :
    EndsInLiteral ((p :: ps).flatMap Piece.text) := by
  induction ps generalizing p with
  | cons q qs ih =>
      obtain ⟨d, hlast, hd⟩ := ih (piecesOf_tail h)
      exact ⟨d, by rw [List.flatMap_cons, List.getLast?_append, hlast, Option.some_or], hd⟩
  | nil =>
      rcases piecesOf_eq_cons h with ⟨c, cs, rfl, hcs, -, hc⟩ |
        ⟨high, low, cs, rfl, -, -, -, hlow⟩
      · obtain rfl : rest = cs := by simpa [Piece.text] using hcs
        refine ⟨c, rfl, ?_⟩
        rcases hc with hc | ⟨-, -, hdigit⟩
        · exact hc
        · cases rest with
          | nil => cases hdigit
          | cons d rest =>
              have hd := Stops.cons_iff.mp hends
              rw [continuesLiteral_of_isDigit hdigit] at hd
              cases hd
      · exact ⟨low, rfl, isLiteral_of_isHexDigit hlow⟩

theorem endsInLiteral_of_read {span : Span} (h : read (span.text ++ rest) = span)
    (hescaped : span.isEscaped = true) (hends : Stops continuesLiteral rest) :
    EndsInLiteral span.text := by
  obtain ⟨p, ps, hps⟩ := List.exists_cons_of_ne_nil (pieces_ne_nil_of_isEscaped hescaped)
  have hpieces := congrArg Span.pieces h
  rw [read, text, hps] at hpieces
  rw [text, hps]
  exact endsInLiteral_of_piecesOf hends hpieces

/-- A text that is literal but for its escapes is the pieces it is written in, whatever
stands behind it. -/
theorem exists_pieces_append (h : Encodes cs bs) (hcs : ∀ c ∈ cs, continuesLiteral c = true) :
    ∃ ps, ps.flatMap Piece.text = cs ∧ ps.flatMap Piece.bytes = bs ∧
      ∀ timed rest, piecesOf timed (cs ++ rest) = ps ++ piecesOf timed rest := by
  induction h with
  | nil => exact ⟨[], rfl, rfl, fun _ _ => rfl⟩
  | @char c cs bs ne tail ih =>
      obtain ⟨ps, rfl, rfl, hps⟩ := ih fun d hd => hcs d (List.mem_cons_of_mem c hd)
      have hc : isLiteral c = true := by
        simpa [continuesLiteral, ne] using hcs c List.mem_cons_self
      refine ⟨.raw c :: ps, rfl, rfl, fun timed rest => ?_⟩
      rw [List.cons_append, piecesOf_literal hc, hps, List.cons_append]
  | escape high_digit low_digit tail ih =>
      obtain ⟨ps, rfl, rfl, hps⟩ := ih fun d hd =>
        hcs d (List.mem_cons_of_mem _ (List.mem_cons_of_mem _ (List.mem_cons_of_mem _ hd)))
      refine ⟨.escape _ _ :: ps, rfl, rfl, fun timed rest => ?_⟩
      rw [List.cons_append, List.cons_append, List.cons_append,
        piecesOf_escape high_digit low_digit, hps, List.cons_append]

/-- A text that is literal but for its escapes is read as one span, where a literal
can end and no colon stands. -/
theorem exists_pieces_of_encodes (h : Encodes cs bs) (hcs : ∀ c ∈ cs, continuesLiteral c = true)
    (hends : Stops continuesLiteral rest) (hcolon : rest.head? ≠ some ':') :
    ∃ ps, piecesOf timed (cs ++ rest) = ps ∧ ps.flatMap Piece.text = cs ∧
      ps.flatMap Piece.bytes = bs := by
  obtain ⟨ps, htext, hbytes, hps⟩ := exists_pieces_append h hcs
  exact ⟨ps, by rw [hps, piecesOf_eq_nil hends hcolon, List.append_nil], htext, hbytes⟩

end Span

/-- A text is what its bytes decode to. -/
theorem fromUTF8?_eq_some_iff {b : ByteArray} :
    String.fromUTF8? b = some v ↔ v.toByteArray = b := by
  unfold String.fromUTF8?
  constructor
  · intro h
    split at h
    · rw [← Option.some.inj h]
      rfl
    · cases h
  · rintro rfl
    rw [dif_pos v.isValidUTF8]
    rfl

end ResourceQuery

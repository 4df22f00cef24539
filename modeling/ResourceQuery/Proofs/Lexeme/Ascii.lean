/-
Everything that is measured is ASCII.

A scan measures in characters and its positions count bytes.  That the two agree is a
property of every recogniser: what it takes, and what it looks at before it decides, are
characters of one byte each (`Ascii`).  `Measured cs n` lists the lengths that reading the
text `cs` comes upon, and each is the length of an ASCII text that `cs` starts with
(`Measured.exists_ascii`), whatever may stand behind it.
-/
import ResourceQuery.Proofs.Lexeme.Reading
import ResourceQuery.Proofs.Literal.Delimiter
import ResourceQuery.Text.ByteLength

namespace ResourceQuery

variable {raw rest u v cs shape : List Char} {c : Char} {m n : Nat} {l : Lexeme}

/-- Every character of the text is one byte. -/
def Ascii (cs : List Char) : Prop :=
  ∀ c ∈ cs, c.utf8Size = 1

instance : Decidable (Ascii cs) :=
  List.decidableBAll _ cs

namespace Ascii

theorem nil : Ascii [] := by
  simp [Ascii]

theorem cons_iff : Ascii (c :: cs) ↔ c.utf8Size = 1 ∧ Ascii cs :=
  List.forall_mem_cons

theorem append_iff : Ascii (u ++ v) ↔ Ascii u ∧ Ascii v :=
  List.forall_mem_append

/-- An ASCII text has as many bytes as characters. -/
theorem byteLength (h : Ascii cs) : byteLength cs = cs.length := by
  induction cs with
  | nil => rfl
  | cons c cs ih =>
      obtain ⟨hc, hcs⟩ := cons_iff.mp h
      rw [byteLength_cons, hc, ih hcs, List.length_cons, Nat.add_comm]

end Ascii

/-- The text has `n` characters, and the first `n` of them are ASCII. -/
structure AsciiUpTo (cs : List Char) (n : Nat) : Prop where
  le : n ≤ cs.length
  ascii : Ascii (cs.take n)

namespace AsciiUpTo

theorem of_append (h : Ascii raw) (rest : List Char) : AsciiUpTo (raw ++ rest) raw.length :=
  ⟨by simp, by rwa [List.take_left]⟩

theorem add (h : AsciiUpTo cs m) (hnext : AsciiUpTo (cs.drop m) n) : AsciiUpTo cs (m + n) := by
  refine ⟨?_, ?_⟩
  · have hle := hnext.le
    rw [List.length_drop] at hle
    have := h.le
    omega
  · rw [List.take_add]
    exact Ascii.append_iff.mpr ⟨h.ascii, hnext.ascii⟩

/-- As many bytes as characters lie in front of the place. -/
theorem byteLength_take (h : AsciiUpTo cs n) : byteLength (cs.take n) = n := by
  rw [h.ascii.byteLength, List.length_take, Nat.min_eq_left h.le]

end AsciiUpTo

/-! ### Character classes -/

theorem utf8Size_of_isAlphanum (h : c.isAlphanum = true) : c.utf8Size = 1 := by
  rw [Char.utf8Size_eq_one_iff, UInt32.le_iff_toNat_le]
  have hz : 'z'.val.toNat = 122 := rfl
  have hZ : 'Z'.val.toNat = 90 := rfl
  have h9 : '9'.val.toNat = 57 := rfl
  have hbound : (127 : UInt32).toNat = 127 := rfl
  change ((decide ('A'.val ≤ c.val ∧ c.val ≤ 'Z'.val) ||
    (decide ('a'.val ≤ c.val) && decide (c.val ≤ 'z'.val))) ||
      (decide ('0'.val ≤ c.val) && decide (c.val ≤ '9'.val))) = true at h
  simp only [Bool.or_eq_true, Bool.and_eq_true, decide_eq_true_eq, UInt32.le_iff_toNat_le] at h
  omega

theorem utf8Size_of_continuesLiteral (h : continuesLiteral c = true) : c.utf8Size = 1 := by
  simp only [continuesLiteral, isLiteral, Bool.or_eq_true, decide_eq_true_eq] at h
  rcases h with ((((((h | rfl) | rfl) | rfl) | rfl) | rfl) | rfl) | rfl
  · exact utf8Size_of_isAlphanum h
  all_goals rfl

theorem ascii_of_isLiteral (h : ∀ c ∈ cs, isLiteral c = true) : Ascii cs :=
  fun c hc => utf8Size_of_continuesLiteral (continuesLiteral_of_isLiteral (h c hc))

theorem ascii_of_isBlank (h : ∀ c ∈ cs, isBlank c = true) : Ascii cs := by
  intro c hc
  have hblank := h c hc
  simp only [isBlank, Bool.or_eq_true, decide_eq_true_eq] at hblank
  rcases hblank with (((rfl | rfl) | rfl) | rfl) | rfl <;> rfl

/-! ### What the recognisers take -/

theorem Comparison.Spelling.ascii {operator : String} (h : Comparison.Spelling raw operator) :
    Ascii raw := by
  cases h with
  | @named c name head tail =>
      have hname : Ascii (c :: name) := by
        refine ascii_of_isLiteral fun d hd => isLiteral_of_continuesName ?_
        rcases List.mem_cons.mp hd with rfl | hd
        · exact continuesName_of_isAlpha head
        · exact tail d hd
      exact Ascii.cons_iff.mpr ⟨rfl, Ascii.append_iff.mpr ⟨hname, by decide⟩⟩
  | _ => decide

theorem Constant.ascii {kind : Kind} (h : (raw, kind) ∈ Constant.forms) : Ascii raw := by
  obtain ⟨c, word, rfl, hword, -⟩ := Constant.exists_word_of_mem_forms h
  exact Ascii.append_iff.mpr ⟨ascii_of_isLiteral hword, by decide⟩

theorem Number.Numeral.ascii (h : Number.Numeral raw) : Ascii raw := by
  intro c hc
  rcases h.isLiteral_or c hc with hliteral | rfl
  · exact utf8Size_of_continuesLiteral (continuesLiteral_of_isLiteral hliteral)
  · rfl

/-- What opens with a shape of ASCII characters is ASCII as far as the shape goes. -/
theorem Date.asciiUpTo_of_opensWith (hshape : Ascii shape) (h : Date.opensWith shape cs = true) :
    AsciiUpTo cs shape.length := by
  refine ⟨Date.length_le_of_opensWith h, ?_⟩
  induction shape generalizing cs with
  | nil => exact Ascii.nil
  | cons s shape ih =>
      obtain ⟨hs, hshape⟩ := Ascii.cons_iff.mp hshape
      cases cs with
      | nil => cases h
      | cons c cs =>
          rw [Date.opensWith, Bool.and_eq_true] at h
          refine Ascii.cons_iff.mpr ⟨?_, ih hshape h.2⟩
          split at h
          · exact utf8Size_of_continuesLiteral (continuesLiteral_of_isDigit h.1)
          · rwa [of_decide_eq_true h.1]

/-- What starts with a run of a class of ASCII characters is ASCII as far as the run goes. -/
theorem asciiUpTo_takeWhile {p : Char → Bool} (hp : ∀ c, p c = true → c.utf8Size = 1)
    (cs : List Char) : AsciiUpTo cs (cs.takeWhile p).length := by
  obtain ⟨u, v, rfl, hu, hv⟩ := exists_run p cs
  rw [takeWhile_append_stops hu hv]
  exact .of_append (fun c hc => hp c (hu c hc)) v

theorem asciiUpTo_one (hc : c.utf8Size = 1) (h : cs.head? = some c) : AsciiUpTo cs 1 := by
  obtain ⟨cs, rfl⟩ := List.head?_eq_some_iff.mp h
  have hascii : Ascii [c] := Ascii.cons_iff.mpr ⟨hc, .nil⟩
  exact .of_append hascii cs

theorem Date.asciiUpTo_time (cs : List Char) : AsciiUpTo cs (Date.timeLength cs) := by
  have hclock : AsciiUpTo cs (cs.takeWhile (fun c => c.isDigit || c = ':')).length := by
    refine asciiUpTo_takeWhile (fun c hc => ?_) cs
    rw [Bool.or_eq_true, decide_eq_true_eq] at hc
    rcases hc with hc | rfl
    · exact utf8Size_of_continuesLiteral (continuesLiteral_of_isDigit hc)
    · rfl
  simp only [Date.timeLength]
  split
  · rename_i hzone
    exact hclock.add (asciiUpTo_one rfl hzone)
  · exact hclock

theorem Date.asciiUpTo_incomplete (h : Date.read cs = .incomplete n) : AsciiUpTo cs n := by
  unfold Date.read at h
  split at h
  · cases h
  · split at h
    · rename_i hday
      obtain rfl := Date.Reading.incomplete.inj h
      have hascii : Ascii Date.dayShape := by decide
      exact (Date.asciiUpTo_of_opensWith hascii hday).add (Date.asciiUpTo_time _)
    · cases h

theorem Span.ascii_text {span : Span} (hwhole : Span.read (span.text ++ rest) = span) :
    Ascii span.text := by
  intro c hc
  have hpieces := congrArg Span.pieces hwhole
  rcases Span.continuesLiteral_or_of_piecesOf hpieces c hc with hc | rfl
  · exact utf8Size_of_continuesLiteral hc
  · rfl

theorem Span.asciiUpTo_read (cs : List Char) : AsciiUpTo cs (Span.read cs).length := by
  have hcs := Span.text_append_drop cs
  have hascii := Span.ascii_text (congrArg Span.read hcs)
  have hupto := AsciiUpTo.of_append hascii (cs.drop (Span.read cs).length)
  rwa [hcs] at hupto

theorem Date.Written.ascii (h : Date.Written raw) : Ascii raw := by
  have hopens := Date.opensWith_shape_iff.mpr ⟨raw, [], (List.append_nil raw).symm, h⟩
  have hupto := Date.asciiUpTo_of_opensWith (by decide) hopens
  have hascii := hupto.ascii
  rwa [← h.length, List.take_length] at hascii

theorem Lexeme.Reading.ascii (h : Lexeme.Reading raw rest l) : Ascii raw := by
  cases h with
  | punctuation h =>
      unfold Lexeme.punctuation? at h
      split at h <;> cases h <;> decide
  | comparison spelling => exact spelling.ascii
  | sign h =>
      unfold Lexeme.sign? at h
      split at h <;> cases h <;> decide
  | number numeral => exact numeral.ascii
  | constant form => exact Constant.ascii form
  | date written => exact written.ascii
  | escaped _ whole => exact Span.ascii_text whole
  | word word => exact ascii_of_isLiteral word.literal

/-! ### What reading comes upon -/

/-- The lengths, in characters, that reading a text comes upon. -/
inductive Measured (cs : List Char) : Nat → Prop
  /-- A comparison, also where one is only looked for behind a text. -/
  | comparison {n : Nat} {operator : String} (h : Comparison.read? cs = some (n, operator)) :
      Measured cs n
  | constant {n : Nat} {kind : Kind} (h : Constant.read? cs = some (n, kind)) : Measured cs n
  /-- A date, also where the literal goes on behind it. -/
  | date (h : Date.opensWith Date.shape cs = true) : Measured cs Date.shape.length
  /-- As much of a date as there is. -/
  | incomplete {n : Nat} (h : Date.read cs = .incomplete n) : Measured cs n
  /-- A number, also where the literal goes on behind it. -/
  | number (h : Number.unsignedLength (cs.drop (Number.signLength cs)) ≠ 0) :
      Measured cs
        (Number.signLength cs + Number.unsignedLength (cs.drop (Number.signLength cs)))
  | span : Measured cs (Span.read cs).length
  /-- A span and the `%` behind it that opens no escape. -/
  | percent (h : (cs.drop (Span.read cs).length).head? = some '%') :
      Measured cs ((Span.read cs).length + 1)
  /-- The text that is cited for such a `%`. -/
  | malformed (h : (cs.drop (Span.read cs).length).head? = some '%') :
      Measured cs (Lexeme.malformedText (Span.read cs) cs).length
  /-- A lexeme. -/
  | lexeme {c : Char} {ds : List Char} {l : Lexeme} (hcs : cs = c :: ds)
      (h : Lexeme.read c ds = .ok l) : Measured cs l.length

theorem asciiUpTo_malformed (h : (cs.drop (Span.read cs).length).head? = some '%') :
    AsciiUpTo cs (Lexeme.malformedText (Span.read cs) cs).length := by
  have hdigits := asciiUpTo_takeWhile (p := isHexDigit)
    (fun c hc => utf8Size_of_continuesLiteral
      (continuesLiteral_of_isLiteral (isLiteral_of_isHexDigit hc)))
    (cs.drop ((Span.read cs).length + 1))
  have hpercent := (Span.asciiUpTo_read cs).add (asciiUpTo_one rfl h)
  have hupto := hpercent.add hdigits
  rw [Lexeme.malformedText, List.length_append, List.length_cons]
  rwa [Nat.add_right_comm] at hupto

/-- **What is measured is ASCII**, whatever stands behind it. -/
theorem Measured.asciiUpTo (h : Measured cs n) : AsciiUpTo cs n := by
  cases h with
  | comparison h =>
      obtain ⟨raw, rest, rfl, rfl, spelling, -⟩ := Comparison.read?_eq_some_iff.mp h
      exact .of_append spelling.ascii rest
  | constant h =>
      obtain ⟨raw, rest, rfl, rfl, form⟩ := Constant.form_of_read? h
      exact .of_append (Constant.ascii form) rest
  | date h => exact Date.asciiUpTo_of_opensWith (by decide) h
  | incomplete h => exact Date.asciiUpTo_incomplete h
  | number h => exact ⟨Number.length_le cs, (Number.numeral_take h).ascii⟩
  | span => exact Span.asciiUpTo_read cs
  | percent h => exact (Span.asciiUpTo_read cs).add (asciiUpTo_one rfl h)
  | malformed h => exact asciiUpTo_malformed h
  | lexeme hcs h =>
      obtain ⟨raw, rest, hraw, reading⟩ := Lexeme.reading_of_read h
      rw [hcs, hraw, reading.length]
      exact .of_append reading.ascii rest

end ResourceQuery

/-
The size of a text in bytes.

Positions in a query count the bytes of its UTF-8 form, while everything that reads
a query reads characters.  `byteLength` is the measure of a run of characters; it
is additive, so the position behind a text is the position in front of it plus the
text's measure.
-/

namespace ResourceQuery

/-- The number of bytes of a text's UTF-8 form. -/
def byteLength : List Char → Nat
  | [] => 0
  | c :: cs => c.utf8Size + byteLength cs

@[simp]
theorem byteLength_nil : byteLength [] = 0 :=
  rfl

@[simp]
theorem byteLength_cons (c : Char) (cs : List Char) :
    byteLength (c :: cs) = c.utf8Size + byteLength cs :=
  rfl

@[simp]
theorem byteLength_append (cs ds : List Char) :
    byteLength (cs ++ ds) = byteLength cs + byteLength ds := by
  induction cs with
  | nil => simp
  | cons c cs ih => simp [ih, Nat.add_assoc]

/-- A text is no shorter in bytes than in characters. -/
theorem length_le_byteLength (cs : List Char) : cs.length ≤ byteLength cs := by
  induction cs with
  | nil => simp
  | cons c cs ih =>
    have := c.utf8Size_pos
    simp only [List.length_cons, byteLength_cons]
    omega

theorem size_utf8Encode (cs : List Char) : cs.utf8Encode.size = byteLength cs := by
  induction cs with
  | nil => simp
  | cons c cs ih =>
    rw [List.utf8Encode_cons, ByteArray.size_append, List.utf8Encode_singleton,
      List.size_toByteArray, String.length_utf8EncodeChar, ih, byteLength_cons]

/-- The measure of a string's characters is the size of the string. -/
theorem byteLength_toList (s : String) : byteLength s.toList = s.utf8ByteSize := by
  rw [← size_utf8Encode, String.utf8Encode_toList, String.utf8ByteSize]

end ResourceQuery

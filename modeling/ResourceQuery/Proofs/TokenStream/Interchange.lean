/-
The interchange form of a token stream is read back as the stream's tokens.

A token's object holds two strings and an integer, so all that can go wrong on the way
through a text is the position: it is read back as far as 64 bits hold it.  The members of
the object are in the order of their names already, and the array of all tokens is one level
above them, which is far below what the reader of JSON allows.
-/
import ResourceQuery.Proofs.Json.RoundTrip
import ResourceQuery.Proofs.Scan.Tiling
import ResourceQuery.Proofs.Token.Interchange

namespace ResourceQuery

/-! ### One token -/

namespace Token

variable {t : Token} {depth : Nat}

theorem readable_toJson (h : t.position < Json.wordLimit) :
    Json.Readable (depth + 1) t.toJson := by
  rw [toJson_eq]
  have hsorted : ["position", "type", "value"].Pairwise (· < ·) := by decide
  refine .object (List.pairwise_map.mp hsorted) ?_
  intro m hm
  simp only [List.mem_cons, List.not_mem_nil, or_false] at hm
  rcases hm with rfl | rfl | rfl
  · have hword : Json.IsWord t.position := by
      constructor <;> omega
    exact .integer hword
  · exact .string _
  · exact .string _

end Token

/-! ### All tokens -/

namespace TokenStream

variable {s : TokenStream}

theorem readable_toJson (h : ∀ t ∈ s.toList, t.position < Json.wordLimit) :
    Json.Readable Json.depthLimit s.toJson := by
  refine .array ?_
  intro j hj
  obtain ⟨t, ht, rfl⟩ := List.mem_map.mp hj
  exact Token.readable_toJson (h t ht)

/-- The text of a stream in either layout stands for one array, and the items of the array
stand for the tokens of the stream. -/
def ReadsBack (s : TokenStream) : Prop :=
  ∃ items : List Json,
    (∀ layout, Json.parse? (s.toJson.render layout) = some (.array items)) ∧
      items.length = s.size ∧ items.map Token.ofJson = s.toList.map .ok

theorem readsBack_of_positions (h : ∀ t ∈ s.toList, t.position < Json.wordLimit) :
    s.ReadsBack := by
  refine ⟨s.toList.map Token.toJson, Json.parse?_render (readable_toJson h), ?_, ?_⟩
  · rw [List.length_map, toList, Array.length_toList, size]
  · rw [List.map_map]
    exact List.map_congr_left fun t ht => Token.ofJson_toJson (h t ht)

end TokenStream

/-! ### The tokens of a query -/

theorem position_le_of_tokenize {query : String} {s : TokenStream} (h : tokenize query = .ok s) :
    ∀ t ∈ s.toList, t.position ≤ query.utf8ByteSize := by
  obtain ⟨rfl, last, hpasses, -⟩ := tokenize_eq_ok_iff.mp h
  intro t ht
  rw [TokenStream.toList_close, List.mem_append, List.mem_singleton] at ht
  rcases ht with ht | rfl
  · obtain ⟨tile, htile, rfl⟩ := List.mem_map.mp ht
    obtain ⟨before, after, hrest, hposition⟩ := hpasses.lies tile htile
    have hsize : byteLength query.toList = byteLength before + byteLength (tile.raw ++ after) := by
      rw [← byteLength_append]
      exact congrArg byteLength hrest
    rw [byteLength_toList] at hsize
    have hstart : (Scan.start query).position = 0 := rfl
    omega
  · exact Nat.le_refl _

/--
**The interchange form of a stream is read back as its tokens**, whatever their kinds and
values are, as long as 64 bits hold their positions.  They do for every query that is
accepted and is not longer than that.
-/
theorem interchange_reads_back :
    (∀ s : TokenStream, (∀ t ∈ s.toList, t.position < Json.wordLimit) → s.ReadsBack) ∧
      ∀ (query : String) (s : TokenStream), query.utf8ByteSize < Json.wordLimit →
        tokenize query = .ok s → s.ReadsBack := by
  refine ⟨fun s h => TokenStream.readsBack_of_positions h, ?_⟩
  intro query s hsize h
  refine TokenStream.readsBack_of_positions fun t ht => ?_
  exact Nat.lt_of_le_of_lt (position_le_of_tokenize h t ht) hsize

/-- Controls, quotes and backslashes in a value, and the last position there is. -/
theorem interchange_reads_back_escaped :
    (TokenStream.close [⟨.string, "\"\\\n\x00\x7fé", 3⟩] 18446744073709551615).ReadsBack ∧
      tokenize "eq(a,%22%5C%0D%01)" = .ok (.close [⟨.operator, "eq", 0⟩, ⟨.openParenthesis, "(", 2⟩,
        ⟨.string, "a", 3⟩, ⟨.comma, ",", 4⟩, ⟨.string, "\"\\\r\x01", 5⟩,
        ⟨.closeParenthesis, ")", 17⟩] 18) ∧
      (TokenStream.close [⟨.operator, "eq", 0⟩, ⟨.openParenthesis, "(", 2⟩,
        ⟨.string, "a", 3⟩, ⟨.comma, ",", 4⟩, ⟨.string, "\"\\\r\x01", 5⟩,
        ⟨.closeParenthesis, ")", 17⟩] 18).ReadsBack :=
  ⟨interchange_reads_back.1 _ (by decide), by decide +kernel,
    interchange_reads_back.2 "eq(a,%22%5C%0D%01)" _ (by decide +kernel) (by decide +kernel)⟩

end ResourceQuery

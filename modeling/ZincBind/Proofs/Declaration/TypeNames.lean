import ZincBind.Proofs.Declaration.Grammar

/-!
# ZincBind.Proofs.Declaration.TypeNames

The type names of predicates.  A name is ASCII, so its characters are its bytes, and changing their
case stays within the bytes of names (`mem_wordBytes_of_mem_camel`).
-/

namespace ZincBind

namespace Bytes

open Grammar

/-- What a byte of a name is written as in either case. -/
theorem mem_wordBytes_of_cased {b c : UInt8} (hc : c ∈ wordBytes)
    (hb : b ∈ String.utf8EncodeChar (Glyph.upperChar (asciiChar c)) ∨
      b ∈ String.utf8EncodeChar (Glyph.lowerChar (asciiChar c))) : b ∈ wordBytes := by
  have hupper : ∀ c ∈ wordBytes, ∀ b ∈ String.utf8EncodeChar (Glyph.upperChar (asciiChar c)),
      b ∈ wordBytes := by decide +kernel
  have hlower : ∀ c ∈ wordBytes, ∀ b ∈ String.utf8EncodeChar (Glyph.lowerChar (asciiChar c)),
      b ∈ wordBytes := by decide +kernel
  cases hb with
  | inl hb => exact hupper c hc b hb
  | inr hb => exact hlower c hc b hb

theorem mem_wordBytes_of_mem_capitalized {segment : Bytes} (h : ∀ c ∈ segment, c ∈ wordBytes)
    {b : UInt8} (hb : b ∈ capitalized segment) : b ∈ wordBytes := by
  have hascii : ∀ c ∈ segment, c.toNat < 128 := fun c hc => (visible_of_mem_wordBytes (h c hc)).2
  rw [capitalized, Glyph.decode_ascii hascii] at hb
  cases segment with
  | nil => simp at hb
  | cons c cs =>
      simp only [List.map_cons, Glyph.shown, List.mem_append, List.mem_flatMap, List.mem_map] at hb
      obtain hb | ⟨_, ⟨d, hd, rfl⟩, hb⟩ := hb
      · exact mem_wordBytes_of_cased (h c List.mem_cons_self) (Or.inl hb)
      · exact mem_wordBytes_of_cased (h d (List.mem_cons_of_mem c hd)) (Or.inr hb)

/-- **Type names**: the type name of a name is made of the bytes of names. -/
theorem mem_wordBytes_of_mem_camel {name : Bytes} (h : IsName name) {b : UInt8}
    (hb : b ∈ camel name) : b ∈ wordBytes := by
  obtain ⟨segment, hsegment, hb⟩ := List.mem_flatMap.1 hb
  have hsub : ∀ c ∈ segment, c ∈ wordBytes := fun c hc =>
    h.mem_wordBytes ((infix_of_mem_pieces hsegment).subset hc)
  exact mem_wordBytes_of_mem_capitalized hsub hb

end Bytes

end ZincBind

import ZincBind.Text.Glyph

/-!
# ZincBind.Proofs.Text.Glyphs

How texts are read as glyphs.  Decoding an encoded text gives its characters back whatever follows
(`decode_utf8_append`), and what decoding gives for any text is its only reading: a character
wherever an encoding stands, and a stray byte elsewhere (`decode_eq_iff`).

No encoding has an ASCII byte in it but the one of that character alone, so a text may be cut in
front of every ASCII byte and read in parts (`decode_append`).
-/

namespace ZincBind

namespace Glyph

/-! ## Reading an encoding back -/

theorem codeAt_one {a : UInt8} (r : Bytes) (h : a.toNat < 128) : codeAt (a :: r) = a.toNat := by
  have h₀ : a < 0x80 := UInt8.lt_iff_toNat_lt.2 h
  rw [codeAt, if_pos h₀]

theorem codeAt_two {a : UInt8} (b : UInt8) (r : Bytes) (h : 128 ≤ a.toNat) (h' : a.toNat < 224) :
    codeAt (a :: b :: r) = a.toNat % 32 * 64 + b.toNat % 64 := by
  have h₀ : ¬ a < 0x80 := fun hlt => absurd (UInt8.lt_iff_toNat_lt.1 hlt) (Nat.not_lt.2 h)
  have h₁ : a < 0xE0 := UInt8.lt_iff_toNat_lt.2 h'
  rw [codeAt, if_neg h₀, if_pos h₁]
  rfl

theorem codeAt_three {a : UInt8} (b c : UInt8) (r : Bytes) (h : 224 ≤ a.toNat)
    (h' : a.toNat < 240) :
    codeAt (a :: b :: c :: r) = a.toNat % 16 * 4096 + b.toNat % 64 * 64 + c.toNat % 64 := by
  have h₀ : ¬ a < 0x80 := fun hlt => absurd (UInt8.lt_iff_toNat_lt.1 hlt) (by simp; omega)
  have h₁ : ¬ a < 0xE0 := fun hlt => absurd (UInt8.lt_iff_toNat_lt.1 hlt) (Nat.not_lt.2 h)
  have h₂ : a < 0xF0 := UInt8.lt_iff_toNat_lt.2 h'
  rw [codeAt, if_neg h₀, if_neg h₁, if_pos h₂]
  rfl

theorem codeAt_four {a : UInt8} (b c d : UInt8) (r : Bytes) (h : 240 ≤ a.toNat) :
    codeAt (a :: b :: c :: d :: r) =
      a.toNat % 8 * 262144 + b.toNat % 64 * 4096 + c.toNat % 64 * 64 + d.toNat % 64 := by
  have h₀ : ¬ a < 0x80 := fun hlt => absurd (UInt8.lt_iff_toNat_lt.1 hlt) (by simp; omega)
  have h₁ : ¬ a < 0xE0 := fun hlt => absurd (UInt8.lt_iff_toNat_lt.1 hlt) (by simp; omega)
  have h₂ : ¬ a < 0xF0 := fun hlt => absurd (UInt8.lt_iff_toNat_lt.1 hlt) (Nat.not_lt.2 h)
  rw [codeAt, if_neg h₀, if_neg h₁, if_neg h₂]
  rfl

/-- The code point read off an encoding is the one encoded. -/
theorem codeAt_utf8EncodeChar_append (c : Char) (rest : Bytes) :
    codeAt (String.utf8EncodeChar c ++ rest) = c.toNat := by
  have hvalid : c.toNat.isValidChar := c.valid
  have hbyte : ∀ n, n < 256 → (UInt8.ofNat n).toNat = n := fun n => UInt8.toNat_ofNat_of_lt'
  rw [Nat.isValidChar] at hvalid
  rw [← Char.toNat_val] at hvalid ⊢
  fun_cases String.utf8EncodeChar c with
  | case1 v h =>
      have ha := hbyte v (by omega)
      rw [List.cons_append, codeAt_one _ (by omega), ha]
  | case2 v _ h =>
      have ha := hbyte (v / 64 % 32 + 192) (by omega)
      have hb := hbyte (v % 64 + 128) (by omega)
      simp only [List.cons_append]
      rw [codeAt_two _ _ (by omega) (by omega), ha, hb]
      omega
  | case3 v _ _ h =>
      have ha := hbyte (v / 4096 % 16 + 224) (by omega)
      have hb := hbyte (v / 64 % 64 + 128) (by omega)
      have hc := hbyte (v % 64 + 128) (by omega)
      simp only [List.cons_append]
      rw [codeAt_three _ _ _ (by omega) (by omega), ha, hb, hc]
      omega
  | case4 v _ _ h =>
      have ha := hbyte (v / 262144 % 8 + 240) (by omega)
      have hb := hbyte (v / 4096 % 64 + 128) (by omega)
      have hc := hbyte (v / 64 % 64 + 128) (by omega)
      have hd := hbyte (v % 64 + 128) (by omega)
      simp only [List.cons_append]
      rw [codeAt_four _ _ _ _ (by omega), ha, hb, hc, hd]
      omega

/-- The character in front of a text is the one whose encoding it begins with. -/
theorem front?_utf8EncodeChar_append (c : Char) (rest : Bytes) :
    front? (String.utf8EncodeChar c ++ rest) = some c := by
  have hpre : (String.utf8EncodeChar c).isPrefixOf (String.utf8EncodeChar c ++ rest) = true :=
    List.isPrefixOf_iff_prefix.2 (List.prefix_append _ _)
  simp only [front?, codeAt_utf8EncodeChar_append, Char.ofNat_toNat, hpre, if_true]

/-- Bytes that belong to a character already taken do not count. -/
theorem decodeFrom_eq_decode_drop (skip : Nat) (bs : Bytes) :
    decodeFrom skip bs = decode (bs.drop skip) := by
  induction skip generalizing bs with
  | zero => rfl
  | succ k ih =>
      cases bs with
      | nil => rfl
      | cons b bs =>
          rw [decodeFrom, ih, List.drop_succ_cons]

/-- A character is decoded from its encoding, and the rest is decoded on its own. -/
theorem decode_utf8EncodeChar_append (c : Char) (rest : Bytes) :
    decode (String.utf8EncodeChar c ++ rest) = .char c :: decode rest := by
  have hfront := front?_utf8EncodeChar_append c rest
  cases hc : String.utf8EncodeChar c with
  | nil => exact absurd hc (utf8EncodeChar_ne_nil c)
  | cons b bs =>
      rw [hc, List.cons_append] at hfront
      rw [List.cons_append, decode, decodeFrom, hfront]
      simp only [decodeFrom_eq_decode_drop, hc, List.length_cons, Nat.add_sub_cancel]
      rw [List.drop_left]

/-! ## Readings -/

/-- How a text is read: an encoding that stands in front is a character, and where none does, the
first byte is a stray. -/
inductive Reading : Bytes → List Glyph → Prop
  | nil : Reading [] []
  | char (c : Char) {bs : Bytes} {gs : List Glyph} :
      Reading bs gs → Reading (String.utf8EncodeChar c ++ bs) (.char c :: gs)
  | stray {b : UInt8} {bs : Bytes} {gs : List Glyph} :
      (∀ c, ¬ String.utf8EncodeChar c <+: b :: bs) → Reading bs gs →
        Reading (b :: bs) (.stray b :: gs)

theorem front?_eq_none_iff {bs : Bytes} :
    front? bs = none ↔ ∀ c, ¬ String.utf8EncodeChar c <+: bs := by
  constructor
  · rintro h c ⟨rest, rfl⟩
    rw [front?_utf8EncodeChar_append] at h
    contradiction
  · intro h
    refine Option.eq_none_iff_forall_ne_some.2 fun c hc => ?_
    obtain ⟨rest, rfl⟩ := front?_eq_some hc
    exact h c (List.prefix_append _ _)

theorem reading_decodeFrom (skip : Nat) (bs : Bytes) :
    Reading (bs.drop skip) (decodeFrom skip bs) := by
  fun_induction decodeFrom skip bs with
  | case1 =>
      rw [List.drop_nil]
      exact .nil
  | case2 k b bs ih => exact ih
  | case3 b bs c h ih =>
      rw [List.drop_zero, cons_eq_of_front? h]
      exact .char c ih
  | case4 b bs h ih => exact .stray (front?_eq_none_iff.1 h) ih

/-- **Decoding** gives the only reading of a text. -/
theorem decode_eq_iff {bs : Bytes} {gs : List Glyph} : decode bs = gs ↔ Reading bs gs := by
  constructor
  · rintro rfl
    exact reading_decodeFrom 0 bs
  · intro h
    induction h with
    | nil => rfl
    | char c _ ih => rw [decode_utf8EncodeChar_append, ih]
    | stray h _ ih =>
        rw [decode, decodeFrom, front?_eq_none_iff.2 h]
        exact congrArg _ ih

end Glyph

theorem utf8_ofList_cons (c : Char) (cs : List Char) :
    utf8 (String.ofList (c :: cs)) = String.utf8EncodeChar c ++ utf8 (String.ofList cs) := by
  simp [utf8]

/-- An encoded text is decoded to its characters, whatever follows it. -/
theorem Glyph.decode_utf8_append (s : String) (rest : Bytes) :
    decode (utf8 s ++ rest) = s.toList.map .char ++ decode rest := by
  rw [← String.ofList_toList (s := s), String.toList_ofList]
  induction s.toList with
  | nil => rfl
  | cons c cs ih =>
      rw [utf8_ofList_cons, List.append_assoc, Glyph.decode_utf8EncodeChar_append, ih,
        List.map_cons, List.cons_append]

/-- An encoded text is decoded to its characters. -/
theorem Glyph.decode_utf8 (s : String) : decode (utf8 s) = s.toList.map .char := by
  have hdecode := decode_utf8_append s []
  rwa [List.append_nil, decode_eq_iff.2 .nil, List.append_nil] at hdecode

/-! ## ASCII -/

/-- The character of an ASCII byte. -/
def asciiChar (b : UInt8) : Char := Char.ofNat b.toNat

theorem toNat_asciiChar {b : UInt8} (h : b.toNat < 128) : (asciiChar b).toNat = b.toNat := by
  have hvalid : b.toNat.isValidChar := Or.inl (by omega)
  rw [asciiChar, Char.ofNat, dif_pos hvalid]
  rfl

/-- A byte below 128 is the encoding of its own character. -/
theorem utf8EncodeChar_asciiChar {b : UInt8} (h : b.toNat < 128) :
    String.utf8EncodeChar (asciiChar b) = [b] := by
  have hc := toNat_asciiChar h
  rw [← Char.toNat_val] at hc
  unfold String.utf8EncodeChar
  rw [hc, if_pos (by omega), UInt8.ofNat_toNat]

/-- ASCII bytes are the encoding of their characters. -/
theorem utf8_asciiChars {bs : Bytes} (h : ∀ b ∈ bs, b.toNat < 128) :
    utf8 (String.ofList (bs.map asciiChar)) = bs := by
  induction bs with
  | nil => rfl
  | cons b bs ih =>
      have hb := h b List.mem_cons_self
      have hbs := ih fun c hc => h c (List.mem_cons_of_mem b hc)
      rw [List.map_cons, utf8_ofList_cons, utf8EncodeChar_asciiChar hb, hbs, List.singleton_append]

/-- A byte below 128 stands in an encoding only as the whole of it. -/
theorem eq_asciiChar_of_mem_utf8EncodeChar {b : UInt8} {c : Char}
    (h : b ∈ String.utf8EncodeChar c) (hb : b.toNat < 128) : c = asciiChar b := by
  have hbyte : ∀ n, n < 256 → (UInt8.ofNat n).toNat = n := fun n => UInt8.toNat_ofNat_of_lt'
  unfold String.utf8EncodeChar at h
  simp only at h
  split at h
  · next hv =>
    rw [List.mem_singleton] at h
    rw [asciiChar, h, hbyte _ (by omega), Char.toNat_val, Char.ofNat_toNat]
  · -- every byte of a longer encoding has its high bit set
    exfalso
    have hhigh : 128 ≤ b.toNat := by
      split at h
      · simp only [List.mem_cons, List.not_mem_nil, or_false] at h
        rcases h with rfl | rfl <;> rw [hbyte _ (by omega)] <;> omega
      · split at h
        · simp only [List.mem_cons, List.not_mem_nil, or_false] at h
          rcases h with rfl | rfl | rfl <;> rw [hbyte _ (by omega)] <;> omega
        · simp only [List.mem_cons, List.not_mem_nil, or_false] at h
          rcases h with rfl | rfl | rfl | rfl <;> rw [hbyte _ (by omega)] <;> omega
    omega

/-- A byte below 128 stands in an encoded text only for its own character. -/
theorem asciiChar_mem_of_mem_utf8 {b : UInt8} {s : String} (h : b ∈ utf8 s) (hb : b.toNat < 128) :
    asciiChar b ∈ s.toList := by
  obtain ⟨c, hc, hbc⟩ := List.mem_flatMap.1 h
  rwa [← eq_asciiChar_of_mem_utf8EncodeChar hbc hb]

namespace Glyph

/-- The glyphs of ASCII bytes are their characters, whatever follows. -/
theorem decode_ascii_append {bs : Bytes} (h : ∀ b ∈ bs, b.toNat < 128) (rest : Bytes) :
    decode (bs ++ rest) = (bs.map fun b => .char (asciiChar b)) ++ decode rest := by
  have hdecode := decode_utf8_append (String.ofList (bs.map asciiChar)) rest
  rwa [utf8_asciiChars h, String.toList_ofList, List.map_map] at hdecode

/-- The glyphs of an ASCII text are the characters of its bytes. -/
theorem decode_ascii {bs : Bytes} (h : ∀ b ∈ bs, b.toNat < 128) :
    decode bs = bs.map fun b => .char (asciiChar b) := by
  have hdecode := decode_ascii_append h []
  rwa [List.append_nil, decode_eq_iff.2 .nil, List.append_nil] at hdecode

/-! ## Cutting a text -/

/-- An encoding does not go on past an ASCII byte. -/
theorem prefix_of_prefix_append {c : Char} {l r : Bytes} (hl : l ≠ [])
    (hr : ∀ b ∈ r.head?, b.toNat < 128) (h : String.utf8EncodeChar c <+: l ++ r) :
    String.utf8EncodeChar c <+: l := by
  obtain ⟨rest, hrest⟩ := h
  obtain ⟨more, hwhole, -⟩ | ⟨past, hpast, hnext⟩ := List.append_eq_append_iff.1 hrest
  · exact ⟨more, hwhole.symm⟩
  · cases past with
    | nil => exact ⟨[], by simpa using hpast⟩
    | cons b past =>
        -- an encoding with an ASCII byte in it is that byte alone, which leaves nothing for `l`
        have hb : b.toNat < 128 := hr b (by rw [hnext]; rfl)
        have hmem : b ∈ String.utf8EncodeChar c := by simp [hpast]
        rw [eq_asciiChar_of_mem_utf8EncodeChar hmem hb, utf8EncodeChar_asciiChar hb] at hpast
        have hlength := congrArg List.length hpast
        have hpos := List.length_pos_iff.2 hl
        simp only [List.length_append, List.length_cons, List.length_nil] at hlength
        omega

/-- The two sides of a cut in front of an ASCII byte are read one after the other. -/
theorem Reading.append {l r : Bytes} {gs hs : List Glyph} (hl : Reading l gs) (hr : Reading r hs)
    (hascii : ∀ b ∈ r.head?, b.toNat < 128) : Reading (l ++ r) (gs ++ hs) := by
  induction hl with
  | nil => exact hr
  | char c _ ih =>
      rw [List.append_assoc]
      exact .char c ih
  | @stray b bs gs h _ ih =>
      refine .stray (fun c hc => h c ?_) ih
      exact prefix_of_prefix_append (List.cons_ne_nil b bs) hascii hc

/-- **Cuts**: a text cut in front of an ASCII byte is decoded in parts. -/
theorem decode_append {l r : Bytes} (h : ∀ b ∈ r.head?, b.toNat < 128) :
    decode (l ++ r) = decode l ++ decode r :=
  decode_eq_iff.2 ((decode_eq_iff.1 rfl).append (decode_eq_iff.1 rfl) h)

end Glyph

end ZincBind

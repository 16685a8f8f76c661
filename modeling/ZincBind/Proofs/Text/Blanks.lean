import Mathlib.Data.List.TakeWhile
import ZincBind.Proofs.Text.Glyphs
import ZincBind.Text.Blank

/-!
# ZincBind.Proofs.Text.Blanks

What trimming does to a byte text.  Blanks are characters, so they can be counted off the front of
any text, and a text in ASCII that begins and ends with something visible comes out of any blanks
around it (`trim_surround`).  In the other direction every text is its trimmed form with blank
characters on both sides (`exists_trim`), and a blank text is made of such characters alone
(`isBlank_iff`).

The blanks of a declaration line are never line feeds; `IsBlankRun` is the text of such blanks.
-/

namespace ZincBind

/-! ## Blank characters -/

namespace Glyph

/-- No visible ASCII character is blank. -/
theorem isBlankChar_asciiChar {b : UInt8} (h : 32 < b.toNat) (h' : b.toNat < 128) :
    isBlankChar (asciiChar b) = false := by
  simp only [isBlankChar, blankCodes, toNat_asciiChar h', List.any_cons, List.any_nil,
    Bool.or_eq_false_iff, Bool.and_eq_false_iff, decide_eq_false_iff_not, and_true]
  omega

/-- Blank glyphs are characters, so a run of them is the text of blank characters. -/
theorem exists_encode_of_blank {gs : List Glyph} (h : ∀ g ∈ gs, isBlank g = true) :
    ∃ s : String, (∀ c ∈ s.toList, isBlankChar c = true) ∧ encode gs = utf8 s := by
  induction gs with
  | nil => exact ⟨"", by simp, rfl⟩
  | cons g gs ih =>
      obtain ⟨s, hs, henc⟩ := ih fun x hx => h x (List.mem_cons_of_mem g hx)
      have hg := h g List.mem_cons_self
      cases g with
      | stray b => simp [isBlank] at hg
      | char c =>
          refine ⟨String.ofList (c :: s.toList), ?_, ?_⟩
          · simpa [isBlank] using ⟨hg, hs⟩
          · rw [encode_cons, henc, utf8_ofList_cons, String.ofList_toList, bytes]

/-- Stripping takes exactly the blanks off both ends. -/
theorem strip_surround {pre mid post : List Glyph} (hpre : ∀ g ∈ pre, isBlank g = true)
    (hpost : ∀ g ∈ post, isBlank g = true) (hfirst : ∀ g ∈ mid.head?, isBlank g = false)
    (hlast : ∀ g ∈ mid.getLast?, isBlank g = false) : strip (pre ++ mid ++ post) = mid := by
  rw [strip, List.append_assoc, List.dropWhile_append_of_pos hpre]
  cases mid with
  | nil =>
      rw [List.nil_append, List.dropWhile_eq_nil_iff.2 hpost]
      rfl
  | cons g gs =>
      have hg : ¬ isBlank g = true := by simp [hfirst g rfl]
      have hrev : ∀ x ∈ post.reverse, isBlank x = true := fun x hx =>
        hpost x (List.mem_reverse.1 hx)
      rw [List.cons_append, List.dropWhile_cons_of_neg hg, ← List.cons_append, List.reverse_append,
        List.dropWhile_append_of_pos hrev]
      cases hgs : (g :: gs).reverse with
      | nil => simp at hgs
      | cons x xs =>
          have hx : ¬ isBlank x = true := by
            have hxlast : x ∈ (g :: gs).getLast? := by
              rw [List.getLast?_eq_head?_reverse, hgs, List.head?_cons, Option.mem_some_iff]
            simp [hlast x hxlast]
          rw [List.dropWhile_cons_of_neg hx, ← hgs, List.reverse_reverse]

/-- A run of glyphs is its stripped form between two runs of blanks. -/
theorem exists_strip (gs : List Glyph) :
    ∃ pre post : List Glyph, (∀ g ∈ pre, isBlank g = true) ∧ (∀ g ∈ post, isBlank g = true) ∧
      gs = pre ++ strip gs ++ post := by
  let rest := gs.dropWhile isBlank
  refine ⟨gs.takeWhile isBlank, (rest.reverse.takeWhile isBlank).reverse,
    fun g hg => List.mem_takeWhile_imp hg,
    fun g hg => List.mem_takeWhile_imp (List.mem_reverse.1 hg), ?_⟩
  have hrest : rest = strip gs ++ (rest.reverse.takeWhile isBlank).reverse := by
    rw [strip, ← List.reverse_append, List.takeWhile_append_dropWhile, List.reverse_reverse]
  rw [List.append_assoc, ← hrest, List.takeWhile_append_dropWhile]

end Glyph

/-! ## Trimming -/

namespace Bytes

/-- The text of blank characters, none of them a line feed. -/
def IsBlankRun (bs : Bytes) : Prop :=
  ∃ s : String, (∀ c ∈ s.toList, Glyph.isBlankChar c = true ∧ c ≠ '\n') ∧ bs = utf8 s

/-- Text in ASCII that begins and ends with something visible. -/
structure IsSolid (bs : Bytes) : Prop where
  ascii : ∀ b ∈ bs, b.toNat < 128
  first : ∀ b ∈ bs.head?, 32 < b.toNat
  last : ∀ b ∈ bs.getLast?, 32 < b.toNat

theorem isBlankRun_nil : IsBlankRun [] := ⟨"", by simp, rfl⟩

/-- An ASCII byte that is a line feed or visible stands in no run of blanks. -/
theorem IsBlankRun.not_mem {bs : Bytes} (h : IsBlankRun bs) {b : UInt8} (hb : b.toNat < 128)
    (hb' : b = byte '\n' ∨ 32 < b.toNat) : b ∉ bs := by
  obtain ⟨s, hs, rfl⟩ := h
  intro hmem
  obtain ⟨hblank, hne⟩ := hs _ (asciiChar_mem_of_mem_utf8 hmem hb)
  rcases hb' with rfl | hvis
  · exact hne rfl
  · rw [Glyph.isBlankChar_asciiChar hvis hb] at hblank
    contradiction

/-- **Blank texts**: a text is blank when it is the text of blank characters. -/
theorem isBlank_iff {bs : Bytes} :
    isBlank bs = true ↔
      ∃ s : String, (∀ c ∈ s.toList, Glyph.isBlankChar c = true) ∧ bs = utf8 s := by
  rw [isBlank, List.all_eq_true]
  constructor
  · intro h
    obtain ⟨s, hs, henc⟩ := Glyph.exists_encode_of_blank h
    exact ⟨s, hs, by rw [← henc, Glyph.encode_decode]⟩
  · rintro ⟨s, hs, rfl⟩ g hg
    rw [Glyph.decode_utf8] at hg
    obtain ⟨c, hc, rfl⟩ := List.mem_map.1 hg
    exact hs c hc

/-- **Trimming, inward**: solid text comes out of any blanks around it. -/
theorem trim_surround {l s r : Bytes} (hl : IsBlankRun l) (hs : IsSolid s) (hr : IsBlankRun r) :
    trim (l ++ s ++ r) = s := by
  obtain ⟨sl, hsl, rfl⟩ := hl
  obtain ⟨sr, hsr, rfl⟩ := hr
  have hdec : Glyph.decode (utf8 sl ++ s ++ utf8 sr) =
      sl.toList.map .char ++ (s.map fun b => .char (asciiChar b)) ++ sr.toList.map .char := by
    rw [List.append_assoc, Glyph.decode_utf8_append, Glyph.decode_ascii_append hs.ascii,
      Glyph.decode_utf8, List.append_assoc]
  have hstrip : Glyph.strip (Glyph.decode (utf8 sl ++ s ++ utf8 sr)) =
      s.map fun b => .char (asciiChar b) := by
    rw [hdec]
    apply Glyph.strip_surround
    · intro g hg
      obtain ⟨c, hc, rfl⟩ := List.mem_map.1 hg
      exact (hsl c hc).1
    · intro g hg
      obtain ⟨c, hc, rfl⟩ := List.mem_map.1 hg
      exact (hsr c hc).1
    · intro g hg
      simp only [List.head?_map, Option.mem_def, Option.map_eq_some_iff] at hg
      obtain ⟨b, hb, rfl⟩ := hg
      exact Glyph.isBlankChar_asciiChar (hs.first b hb) (hs.ascii b (List.mem_of_mem_head? hb))
    · intro g hg
      simp only [List.getLast?_map, Option.mem_def, Option.map_eq_some_iff] at hg
      obtain ⟨b, hb, rfl⟩ := hg
      exact Glyph.isBlankChar_asciiChar (hs.last b hb) (hs.ascii b (List.mem_of_getLast? hb))
  rw [trim, hstrip, ← Glyph.decode_ascii hs.ascii, Glyph.encode_decode]

/-- **Trimming, outward**: a text is its trimmed form between two texts of blank characters. -/
theorem exists_trim (bs : Bytes) :
    ∃ l r : String, (∀ c ∈ l.toList, Glyph.isBlankChar c = true) ∧
      (∀ c ∈ r.toList, Glyph.isBlankChar c = true) ∧ bs = utf8 l ++ trim bs ++ utf8 r := by
  obtain ⟨pre, post, hpre, hpost, hsplit⟩ := Glyph.exists_strip (Glyph.decode bs)
  obtain ⟨l, hl, hle⟩ := Glyph.exists_encode_of_blank hpre
  obtain ⟨r, hr, hre⟩ := Glyph.exists_encode_of_blank hpost
  refine ⟨l, r, hl, hr, ?_⟩
  have henc := congrArg Glyph.encode hsplit
  rwa [Glyph.encode_decode, Glyph.encode_append, Glyph.encode_append, hle, hre, ← trim] at henc

/-- On a text of one line the blanks taken off are no line feeds. -/
theorem exists_trim_of_line {bs : Bytes} (h : byte '\n' ∉ bs) :
    ∃ l r, IsBlankRun l ∧ IsBlankRun r ∧ bs = l ++ trim bs ++ r := by
  obtain ⟨l, r, hl, hr, hbs⟩ := exists_trim bs
  have hmem : ∀ s : String, '\n' ∈ s.toList → byte '\n' ∈ utf8 s := fun s hs =>
    List.mem_flatMap.2 ⟨'\n', hs, by decide⟩
  rw [hbs] at h
  simp only [List.mem_append, not_or] at h
  refine ⟨utf8 l, utf8 r, ⟨l, fun c hc => ⟨hl c hc, ?_⟩, rfl⟩, ⟨r, fun c hc => ⟨hr c hc, ?_⟩, rfl⟩,
    hbs⟩
  · rintro rfl
    exact h.1.1 (hmem l hc)
  · rintro rfl
    exact h.2 (hmem r hc)

/-- What is left of a text after trimming stands in it. -/
theorem trim_isInfix (bs : Bytes) : trim bs <:+: bs := by
  obtain ⟨l, r, -, -, hbs⟩ := exists_trim bs
  exact ⟨utf8 l, utf8 r, hbs.symm⟩

end Bytes

end ZincBind

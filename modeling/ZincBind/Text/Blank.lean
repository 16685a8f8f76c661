import ZincBind.Text.Glyph

/-!
# ZincBind.Text.Blank

Blank characters are those with the Unicode property White_Space. A stray byte is never blank.
-/

namespace ZincBind

namespace Glyph

/-- The property White_Space, by code point. -/
def blankCodes : List (Nat × Nat) :=
  [(0x9, 0xD), (0x20, 0x20), (0x85, 0x85), (0xA0, 0xA0), (0x1680, 0x1680), (0x2000, 0x200A),
   (0x2028, 0x2029), (0x202F, 0x202F), (0x205F, 0x205F), (0x3000, 0x3000)]

/-- Whether a character has the property White_Space. -/
def isBlankChar (c : Char) : Bool :=
  blankCodes.any fun (lo, hi) => lo ≤ c.toNat && c.toNat ≤ hi

/-- Whether a glyph is a blank character. -/
def isBlank : Glyph → Bool
  | .char c => isBlankChar c
  | .stray _ => false

/-- A run of glyphs without the blanks at its two ends. -/
def strip (gs : List Glyph) : List Glyph :=
  ((gs.dropWhile isBlank).reverse.dropWhile isBlank).reverse

end Glyph

namespace Bytes

/-- The text without the blank characters at its two ends. -/
def trim (bs : Bytes) : Bytes := Glyph.encode (Glyph.strip (Glyph.decode bs))

/-- Whether the text is made of blank characters only. -/
def isBlank (bs : Bytes) : Bool := (Glyph.decode bs).all Glyph.isBlank

end Bytes

end ZincBind

import ZincBind.Text.Glyph

/-!
# ZincBind.Document.Characters

The characters of a YAML stream. A byte order mark chooses the encoding, UTF-8 without one; a
text that is not well formed in it, or that holds a control character other than tab, line feed,
carriage return and next line, is no stream at all.
-/

namespace ZincBind

namespace Document

/-- Whether a code point may stand in a stream. -/
def isAllowed (n : Nat) : Bool :=
  n == 0x9 || n == 0xA || n == 0xD || (0x20 ≤ n && n ≤ 0x7E) || n == 0x85 ||
    (0xA0 ≤ n && n ≤ 0xD7FF) || (0xE000 ≤ n && n ≤ 0xFFFD) || (0x10000 ≤ n && n ≤ 0x10FFFF)

/-- The code points of UTF-8 bytes. -/
def utf8Codes? (bs : Bytes) : Option (List Nat) :=
  (Glyph.decode bs).mapM fun
    | .char c => some c.toNat
    | .stray _ => none

/-- The 16-bit units of an even number of bytes. -/
def units16? (bigEndian : Bool) : Bytes → Option (List Nat)
  | [] => some []
  | [_] => none
  | a :: b :: r =>
    let unit := if bigEndian then a.toNat * 256 + b.toNat else b.toNat * 256 + a.toNat
    (units16? bigEndian r).map (unit :: ·)

/-- The code points of 16-bit units; a surrogate without its partner has none. -/
def utf16Codes? : List Nat → Option (List Nat)
  | [] => some []
  | u :: us =>
    if 0xDC00 ≤ u ∧ u ≤ 0xDFFF then none
    else if 0xD800 ≤ u ∧ u ≤ 0xDBFF then
      match us with
      | [] => none
      | v :: vs =>
        if 0xDC00 ≤ v ∧ v ≤ 0xDFFF then
          (utf16Codes? vs).map ((0x10000 + (u - 0xD800) * 1024 + (v - 0xDC00)) :: ·)
        else none
    else (utf16Codes? us).map (u :: ·)

/-- The code points of a stream, by its byte order mark. -/
def codes? : Bytes → Option (List Nat)
  | 0xFF :: 0xFE :: r => units16? false r >>= utf16Codes?
  | 0xFE :: 0xFF :: r => units16? true r >>= utf16Codes?
  | 0xEF :: 0xBB :: 0xBF :: r => utf8Codes? r
  | bs => utf8Codes? bs

/-- The characters of a stream. -/
def characters? (bs : Bytes) : Option (List Char) := do
  let codes ← codes? bs
  if codes.all isAllowed then some (codes.map Char.ofNat) else none

end Document

end ZincBind

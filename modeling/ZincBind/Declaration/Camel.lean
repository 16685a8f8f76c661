import ZincBind.Text.Casing

/-!
# ZincBind.Declaration.Camel

Type names from snake-case names: the text is cut at underscores, and each segment has its first
character in upper case and the rest in lower case. The underscores go, so different names may
share a type name.
-/

namespace ZincBind

namespace Bytes

/-- A segment with its first character in upper case and the others in lower case; a stray byte
becomes U+FFFD. -/
def capitalized (segment : Bytes) : Bytes :=
  match Glyph.decode segment with
  | [] => []
  | g :: gs =>
    String.utf8EncodeChar (Glyph.upperChar g.shown) ++
      gs.flatMap fun g => String.utf8EncodeChar (Glyph.lowerChar g.shown)

/-- The capitalized segments of a snake-case name in a row. -/
def camel (name : Bytes) : Bytes := (pieces (byte '_') name).flatMap capitalized

end Bytes

end ZincBind

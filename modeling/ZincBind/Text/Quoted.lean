import ZincBind.Text.Printable

/-!
# ZincBind.Text.Quoted

Quoted text in messages. Printable characters stand for themselves; the quote mark and the
backslash get a backslash in front; the seven controls with a letter of their own use it; other
ASCII controls and stray bytes are two hexadecimal digits after `\x`, and the remaining
characters four digits after `\u` or eight after `\U`.
-/

namespace ZincBind

namespace Quoted

/-- The letter of a control character that has one. -/
def letter? (n : Nat) : Option Char :=
  match n with
  | 7 => some 'a'
  | 8 => some 'b'
  | 9 => some 't'
  | 10 => some 'n'
  | 11 => some 'v'
  | 12 => some 'f'
  | 13 => some 'r'
  | _ => none

/-- The last `width` lower-case hexadecimal digits of a number, with leading zeros. -/
def hex : Nat → Nat → Bytes
  | 0, _ => []
  | width + 1, n => hex width (n / 16) ++ [byte (Nat.digitChar (n % 16))]

/-- A character between the given quote marks. -/
def escapeChar (mark c : Char) : Bytes :=
  if c = mark ∨ c = '\\' then byte '\\' :: String.utf8EncodeChar c
  else if Glyph.isPrintableChar c then String.utf8EncodeChar c
  else
    match letter? c.toNat with
    | some l => [byte '\\', byte l]
    | none =>
      if c.toNat < 0x80 then utf8 "\\x" ++ hex 2 c.toNat
      else if c.toNat < 0x10000 then utf8 "\\u" ++ hex 4 c.toNat
      else utf8 "\\U" ++ hex 8 c.toNat

/-- A glyph between the given quote marks. -/
def escape (mark : Char) : Glyph → Bytes
  | .char c => escapeChar mark c
  | .stray b => utf8 "\\x" ++ Bytes.hexPair b

/-- A single character in single quotes. -/
def char (c : Char) : Bytes := byte '\'' :: escapeChar '\'' c ++ [byte '\'']

end Quoted

namespace Bytes

/-- The text in double quotes. -/
def quoted (bs : Bytes) : Bytes :=
  byte '"' :: (Glyph.decode bs).flatMap (Quoted.escape '"') ++ [byte '"']

end Bytes

end ZincBind

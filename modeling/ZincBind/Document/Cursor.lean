/-!
# ZincBind.Document.Cursor

A place in a character stream, with the line and column that layout rules look at.
-/

namespace ZincBind

namespace Document

/-! ## Character classes -/

/-- A space or a tab. -/
def isBlank (c : Char) : Bool := c == ' ' || c == '\t'

/-- A character that ends a line. -/
def isBreak (c : Char) : Bool :=
  c == '\n' || c == '\r' || c.toNat == 0x85 || c.toNat == 0x2028 || c.toNat == 0x2029

/-- The byte order mark, which may also begin a line. -/
def isMark (c : Char) : Bool := c.toNat == 0xFEFF

/-- A character of anchors, directive names and tag handles. -/
def isAlpha (c : Char) : Bool := c.isAlphanum || c == '_' || c == '-'

/-- The value of a hexadecimal digit. -/
def hexValue? (c : Char) : Option Nat :=
  if c.isDigit then some (c.toNat - '0'.toNat)
  else if 'a' ≤ c ∧ c ≤ 'f' then some (c.toNat - 'a'.toNat + 10)
  else if 'A' ≤ c ∧ c ≤ 'F' then some (c.toNat - 'A'.toNat + 10)
  else none

/-- What a line break is read as: the line and paragraph separators stay, the others become line
feeds. -/
def breakText (c : Char) : Char := if c.toNat == 0x2028 || c.toNat == 0x2029 then c else '\n'

/-! ## Places -/

/-- A place in a stream. -/
structure Cursor where
  /-- The characters to come. -/
  rest : List Char
  /-- The number of characters passed. -/
  index : Nat
  /-- The number of lines passed. -/
  line : Nat
  /-- The number of characters passed on this line. -/
  column : Nat
  /-- Whether only blanks have been passed since the last line break. -/
  fresh : Bool
deriving Repr

namespace Cursor

/-- The start of a stream. -/
def start (cs : List Char) : Cursor := ⟨cs, 0, 0, 0, false⟩

/-- The next character. -/
def peek (c : Cursor) : Option Char := c.rest.head?

/-- The character some way ahead. -/
def ahead (c : Cursor) (n : Nat) : Option Char := c.rest[n]?

/-- Whether a given character is next. -/
def at? (c : Cursor) (ch : Char) : Bool := c.peek == some ch

/-- Whether the character some way ahead is blank, ends a line or lies past the end. -/
def gapAhead (c : Cursor) (n : Nat) : Bool := (c.ahead n).all fun ch => isBlank ch || isBreak ch

/-- Whether a line or the stream ends here. -/
def atLineEnd (c : Cursor) : Bool := c.peek.all isBreak

/-- Pass one character. A line break starts a new line, and a carriage return takes the line feed
after it along. -/
def advance (c : Cursor) : Cursor :=
  match c.rest with
  | [] => c
  | '\r' :: '\n' :: r => ⟨r, c.index + 2, c.line + 1, 0, true⟩
  | ch :: r =>
    if isBreak ch then ⟨r, c.index + 1, c.line + 1, 0, true⟩
    else ⟨r, c.index + 1, c.line, c.column + 1, c.fresh && isBlank ch⟩

/-- Pass a number of characters. -/
def skip : Nat → Cursor → Cursor
  | 0, c => c
  | n + 1, c => skip n c.advance

/-- Pass characters while they are of a kind, at most `fuel` of them. -/
def skipWhileUpTo (p : Char → Bool) : Nat → Cursor → Cursor
  | 0, c => c
  | fuel + 1, c =>
    match c.peek with
    | some ch => if p ch then skipWhileUpTo p fuel c.advance else c
    | none => c

/-- Pass characters while they are of a kind. -/
def skipWhile (p : Char → Bool) (c : Cursor) : Cursor := skipWhileUpTo p c.rest.length c

/-- The run of characters of a kind that comes next, and the place after it. -/
def takeWhile (p : Char → Bool) (c : Cursor) : List Char × Cursor :=
  (c.rest.takeWhile p, c.skipWhile p)

/-- Pass the rest of the line. -/
def skipLineText (c : Cursor) : Cursor := c.skipWhile fun ch => !isBreak ch

/-- Whether a document marker stands here: three equal characters at the start of a line, then a
gap. -/
def atMarker (ch : Char) (c : Cursor) : Bool :=
  c.column == 0 && c.rest.take 3 == [ch, ch, ch] && c.gapAhead 3

/-- Whether a document starts or ends here. -/
def atDocumentMarker (c : Cursor) : Bool := c.atMarker '-' || c.atMarker '.'

end Cursor

end Document

end ZincBind

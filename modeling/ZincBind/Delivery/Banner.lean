import ZincBind.Text.Glyph

/-!
# ZincBind.Delivery.Banner

The line above a printed file: its path, with a space on each side, in the middle of a row of
dashes sixty characters wide. An odd dash goes to the right, and a path too long for the row
stands alone.
-/

namespace ZincBind

namespace Banner

/-- The width of the row in characters. -/
def width : Nat := 60

/-- The number of characters of a text; a stray byte counts as one. -/
def columns (bs : Bytes) : Nat := (Glyph.decode bs).length

/-- A text in the middle of a row of dashes. -/
def center (text : Bytes) : Bytes :=
  let spare := width - columns text
  let left := spare / 2
  List.replicate left (byte '-') ++ text ++ List.replicate (spare - left) (byte '-')

/-- The banner of a path. -/
def render (path : Bytes) : Bytes := center (utf8 " " ++ path ++ utf8 " ")

end Banner

end ZincBind

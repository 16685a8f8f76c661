import ZincBind.Declaration.Identifier

/-!
# ZincBind.Settings.CratePath

Rust module paths: one or more segments with `::` between neighbours, each a letter or an
underscore followed by letters, digits and underscores.
-/

namespace ZincBind

namespace CratePath

/-- Whether a byte may begin a segment. -/
def isStart (b : UInt8) : Bool := Identifier.isLetter b || b == byte '_'

/-- Whether a text is a segment. -/
def isSegment : Bytes → Bool
  | [] => false
  | b :: bs => isStart b && bs.all Identifier.isWord

/-- Where reading a path has got to. -/
inductive State where
  /-- A segment has to begin. -/
  | start
  /-- Inside a segment. -/
  | word
  /-- After the first colon of a separator. -/
  | colon
deriving DecidableEq, Repr

/-- Read one byte. -/
def step : State → UInt8 → Option State
  | .start, b => if isStart b then some .word else none
  | .word, b =>
    if Identifier.isWord b then some .word else if b = byte ':' then some .colon else none
  | .colon, b => if b = byte ':' then some .start else none

/-- Whether the rest of a path is well formed from a state on. -/
def acceptsFrom : State → Bytes → Bool
  | s, [] => s == .word
  | s, b :: bs =>
    match step s b with
    | some s' => acceptsFrom s' bs
    | none => false

/-- Whether a text is a module path. -/
def isValid (bs : Bytes) : Bool := acceptsFrom .start bs

end CratePath

end ZincBind

import ZincBind.Bytes

/-!
# ZincBind.Files.Path

Slash-separated paths and their lexical normal form: no empty and no `.` elements, and `..` only
at the front of a relative path. Cleaning looks at the spelling alone, never at a file tree.
-/

namespace ZincBind

/-- A path as its elements. -/
structure Path where
  /-- Whether it starts at the root. -/
  absolute : Bool
  /-- The elements between the slashes. -/
  parts : List Bytes
deriving DecidableEq, Repr

namespace Path

/-- The element for the directory itself. -/
def here : Bytes := utf8 "."

/-- The element for the parent directory. -/
def up : Bytes := utf8 ".."

/-- Whether an element stays where it is. -/
def isIdle (part : Bytes) : Bool := part == [] || part == here

/-- Add an element to a clean path. An idle one changes nothing; `..` takes back the last name,
stays at the root of an absolute path, and is kept where a relative path has no name to take. -/
def push (absolute : Bool) (parts : List Bytes) (part : Bytes) : List Bytes :=
  if isIdle part then parts
  else if part = up then
    if absolute then parts.dropLast
    else if parts.getLast?.all (· == up) then parts ++ [up]
    else parts.dropLast
  else parts ++ [part]

/-- Whether a spelling starts at the root. -/
def isAbsolute (spelling : Bytes) : Bool := spelling.head? == some (byte '/')

/-- The clean path of a spelling. -/
def ofBytes (spelling : Bytes) : Path where
  absolute := isAbsolute spelling
  parts := (Bytes.pieces (byte '/') spelling).foldl (push (isAbsolute spelling)) []

/-- The spelling of a path; an empty relative path is a dot. -/
def toBytes (p : Path) : Bytes :=
  if p.absolute then byte '/' :: Bytes.joined (utf8 "/") p.parts
  else if p.parts.isEmpty then here
  else Bytes.joined (utf8 "/") p.parts

/-- The shortest spelling with the same lexical meaning. -/
def clean (spelling : Bytes) : Bytes := (ofBytes spelling).toBytes

/-- The clean spelling of `rest` below `base`. An empty side does not count, and with both empty
so is the result. -/
def join (base rest : Bytes) : Bytes :=
  if base.isEmpty then if rest.isEmpty then [] else clean rest
  else clean (base ++ byte '/' :: rest)

@[simp] theorem push_nil (absolute : Bool) (parts : List Bytes) : push absolute parts [] = parts :=
  rfl

@[simp] theorem push_here (absolute : Bool) (parts : List Bytes) :
    push absolute parts here = parts :=
  rfl

/-- A name goes to the end. -/
theorem push_name {absolute : Bool} {parts : List Bytes} {part : Bytes} (h : isIdle part = false)
    (h' : part ≠ up) : push absolute parts part = parts ++ [part] := by
  simp [push, h, h']

end Path

end ZincBind

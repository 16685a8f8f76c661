import ZincBind.Files.System
import ZincBind.Text.Glyph

/-!
# ZincBind.Files.Glob

Patterns for paths. Within an element `*` matches any characters and `?` one; `[a-z]` matches one
character of a set and `[!a-z]` one outside it; `\` takes the next character literally. An element
`**` matches any number of directories, and `{a,b}` stands for its alternatives, which may hold
slashes and further braces. Only files match, by the whole of their path.

A pattern is searched for element by element: each takes the directories found so far to what it
matches in them. A file that `**` leads to in several ways is found as often.
-/

namespace ZincBind

namespace Glob

/-! ## Characters of a pattern -/

/-- A character of a pattern, with or without a backslash in front. -/
inductive Mark where
  | plain (g : Glyph)
  | escaped (g : Glyph)
deriving DecidableEq, Repr

/-- A character that is not escaped. -/
def sign (c : Char) : Mark := .plain (.char c)

/-- The marks of a text's glyphs; a backslash at the end has nothing to escape. -/
def marks? : List Glyph → Option (List Mark)
  | [] => some []
  | [.char '\\'] => none
  | .char '\\' :: g :: gs => (marks? gs).map (.escaped g :: ·)
  | g :: gs => (marks? gs).map (.plain g :: ·)

/-- Whether a mark is one of these characters and not escaped. -/
def Mark.isPlainOf (chars : String) : Mark → Bool
  | .plain (.char c) => chars.toList.contains c
  | _ => false

/-- Whether a mark gives its pattern a meaning beyond its text. -/
def isMeta : Mark → Bool := Mark.isPlainOf "*?[\x7b"

/-- The rest after the end of a set. -/
def afterSet? : List Mark → Option (List Mark)
  | [] => none
  | m :: ms => if m = sign ']' then some ms else afterSet? ms

/-- What comes after a set's `!` or `^`. -/
def setBody : List Mark → List Mark
  | m :: ms => if m.isPlainOf "!^" then ms else m :: ms
  | [] => []

/-- Whether sets are closed and not empty, and braces match, from a depth of braces on; at most
`fuel` marks are looked at. -/
def isBalanced : Nat → Nat → List Mark → Bool
  | 0, _, _ => false
  | _, depth, [] => depth == 0
  | fuel + 1, depth, m :: ms =>
    match m with
    | .plain (.char '[') =>
      let body := setBody ms
      if body.head? == some (sign ']') then false
      else
        match afterSet? body with
        | some rest => isBalanced fuel depth rest
        | none => false
    | .plain (.char '\x7b') => isBalanced fuel (depth + 1) ms
    | .plain (.char '\x7d') => depth != 0 && isBalanced fuel (depth - 1) ms
    | _ => isBalanced fuel depth ms

/-- Whether marks make a pattern. -/
def isWellFormed (ms : List Mark) : Bool := isBalanced (ms.length + 1) 0 ms

/-! ## Cutting a pattern -/

/-- Cut the inside of braces at the commas that are not in braces themselves. -/
def alternatives : Nat → List Mark → List (List Mark)
  | _, [] => [[]]
  | depth, m :: ms =>
    if m = sign ',' ∧ depth = 0 then [] :: alternatives 0 ms
    else
      let depth :=
        if m = sign '\x7b' then depth + 1 else if m = sign '\x7d' then depth - 1 else depth
      match alternatives depth ms with
      | a :: as => (m :: a) :: as
      | [] => [[m]]

/-- The alternatives that count: an empty one at the end does not. -/
def choices (inside : List Mark) : List (List Mark) :=
  let as := alternatives 0 inside
  if as.getLast? == some [] then as.dropLast else as

/-- Split reversed marks at the brace that opens the innermost group: what is inside, and what
comes before, both reversed. -/
def opening? : Nat → List Mark → Option (List Mark × List Mark)
  | _, [] => none
  | depth, m :: ms =>
    if m = sign '\x7b' then
      if depth = 0 then some ([], ms)
      else (opening? (depth - 1) ms).map fun (i, o) => (m :: i, o)
    else
      let depth := if m = sign '\x7d' then depth + 1 else depth
      (opening? depth ms).map fun (i, o) => (m :: i, o)

/-- How a pattern is cut for the last time. -/
inductive Cut where
  /-- Not at all. -/
  | none
  /-- At a slash. -/
  | slash (dir last : List Mark)
  /-- Around a group in braces. -/
  | group (before inside after : List Mark)

/-- Cut a pattern at its last slash or its last group, whichever ends later. The marks come
reversed, and `after` is what has been passed of them. -/
def lastCut (after : List Mark) : List Mark → Cut
  | [] => .none
  | m :: ms =>
    if m = sign '/' then .slash ms.reverse after
    else if m = sign '\x7d' then
      match opening? 0 ms with
      | some (inside, before) => .group before.reverse inside.reverse after
      | none => lastCut (m :: after) ms
    else lastCut (m :: after) ms

/-! ## Matching a name -/

/-- A member of a set. -/
inductive Member where
  | one (c : Char)
  | range (lo hi : Char)
deriving DecidableEq, Repr

/-- A part of an element. -/
inductive Part where
  /-- This character. -/
  | literal (c : Char)
  /-- Any one character. -/
  | any
  /-- Any characters. -/
  | star
  /-- One character in a set, or outside it. -/
  | set (negated : Bool) (members : List Member)
deriving DecidableEq, Repr

/-- The character a mark shows. -/
def Mark.char : Mark → Char
  | .plain g => g.shown
  | .escaped g => g.shown

/-- Read the members of a set. `last` is the member before, if a range may start with it. -/
def members : Option Char → List Mark → List Member
  | _, [] => []
  | some lo, .plain (.char '-') :: hi :: ms => .range lo hi.char :: members none ms
  | _, m :: ms => .one m.char :: members (some m.char) ms

/-- Read an element's parts, at most `fuel` of them. -/
def parts : Nat → List Mark → List Part
  | 0, _ => []
  | _, [] => []
  | fuel + 1, m :: ms =>
    match m with
    | .plain (.char '*') => .star :: parts fuel ms
    | .plain (.char '?') => .any :: parts fuel ms
    | .plain (.char '[') =>
      let body := setBody ms
      let inside := body.takeWhile (· ≠ sign ']')
      .set (ms.length ≠ body.length) (members none inside) ::
        parts fuel (body.drop (inside.length + 1))
    | m => .literal m.char :: parts fuel ms

/-- Whether a character belongs to a member of a set. -/
def Member.has : Member → Char → Bool
  | .one m, c => m == c
  | .range lo hi, c => lo ≤ c && c ≤ hi

/-- Whether the parts match a name's characters. After a star they may match any end of them. -/
def matchParts : List Part → List Char → Bool
  | [], cs => cs.isEmpty
  | .star :: ps, cs => (List.range (cs.length + 1)).any fun n => matchParts ps (cs.drop n)
  | .literal _ :: _, [] => false
  | .literal p :: ps, c :: cs => p == c && matchParts ps cs
  | .any :: _, [] => false
  | .any :: ps, _ :: cs => matchParts ps cs
  | .set .. :: _, [] => false
  | .set negated ms :: ps, c :: cs => (ms.any (·.has c) != negated) && matchParts ps cs

/-- The characters of a name; a stray byte shows as U+FFFD. -/
def nameChars (name : Bytes) : List Char := (Glyph.decode name).map Glyph.shown

/-- What comes before a set that is not closed, if there is one; at most `fuel` marks and sets are
looked at. A slash ends an element even inside a set, and so can leave the set unclosed. -/
def beforeUnclosed? : Nat → List Mark → Option (List Mark)
  | 0, _ => none
  | _, [] => none
  | fuel + 1, m :: ms =>
    if m = sign '[' then
      match afterSet? (setBody ms) with
      | none => some []
      | some rest =>
        (beforeUnclosed? fuel rest).map ((m :: ms).take (ms.length + 1 - rest.length) ++ ·)
    else (beforeUnclosed? fuel ms).map (m :: ·)

/-- Whether an element matches a name. There is no telling if this comes upon a set that is not
closed while characters of the name are left. -/
def matchName? (ms : List Mark) (name : Bytes) : Option Bool :=
  match beforeUnclosed? ms.length ms with
  | none => some (matchParts (parts ms.length ms) (nameChars name))
  | some before =>
    if matchParts (parts before.length before ++ [.any, .star]) (nameChars name) then none
    else some false

/-! ## Searching a tree -/

/-- What a search is for: directories to go on from, or files. -/
inductive Goal where
  | directories
  | files
deriving DecidableEq

/-- Whether an entry is what a search is for. -/
def Goal.takes : Goal → Entry → Bool
  | .directories, .directory => true
  | .files, .file _ => true
  | _, _ => false

/-- Whether a place is a directory that can be gone into; names that are not UTF-8 bar the way. -/
def isOpen (t : FileTree) (dir : Location) : Bool :=
  t.get? dir == some .directory && dir.all Glyph.isUtf8

/-- The text of marks that have no meaning beyond it: a backslash goes only where it stands in
front of a character with a meaning. -/
def unescape (ms : List Mark) : Bytes :=
  Glyph.encode (ms.flatMap fun
    | .plain g => [g]
    | .escaped g =>
      if (Mark.plain g).isPlainOf "*?[]\x7b\x7d" then [g] else [.char '\\', g])

/-- The place below a directory that a pattern without meaning beyond its text leads to. -/
def literal (t : FileTree) (goal : Goal) (dir : Location) (ms : List Mark) : List Location :=
  let text := unescape ms
  let place := if text = Path.here ∧ dir = [] then [] else dir ++ Bytes.pieces (byte '/') text
  match t.get? place with
  | some e => if place.all Glyph.isUtf8 && (goal == .directories || goal.takes e) then [place] else []
  | none => []

/-- The places directly below a directory that an element matches. -/
def children? (t : FileTree) (goal : Goal) (dir : Location) (ms : List Mark) :
    Option (List Location) := do
  let near := t.entries.filter fun (place, _) => FileTree.isChild dir place
  let hits ← near.filterM fun (place, _) => matchName? ms (place.getLast?.getD [])
  return (hits.filter fun (_, e) => goal.takes e).map (·.1)

/-- The places any number of directories below a directory. -/
def anywhere (t : FileTree) (goal : Goal) (dir : Location) : List Location :=
  let below := (t.below dir).filterMap fun (names, e) =>
    let passed := if goal = .files then names.dropLast else names
    if goal.takes e && passed.all Glyph.isUtf8 then some (dir ++ names) else none
  if goal = .files then below else dir :: below

/-- The places an element leads to from a directory. -/
def step? (t : FileTree) (goal : Goal) (ms : List Mark) (dir : Location) :
    Option (List Location) :=
  if !isOpen t dir then some []
  else if ms = [] then some (if goal = .files then [] else [dir])
  else if ms = [sign '*', sign '*'] then some (anywhere t goal dir)
  else children? t goal dir ms

/-- The places a pattern leads to from a directory, each as often as there are ways to get there;
alternatives in braces add none. There is no telling if matching comes upon a set that is not
closed. Every step takes marks away, so there are at most `fuel` of them if the pattern has
fewer. -/
def find? (t : FileTree) : Nat → Goal → Location → List Mark → Option (List Location)
  | 0, _, _, _ => some []
  | fuel + 1, goal, dir, ms =>
    if !ms.any isMeta then some (literal t goal dir ms)
    else
      match lastCut [] ms.reverse with
      | .none => step? t goal ms dir
      | .slash front last => do
        let dirs ← find? t fuel .directories dir front
        return (← dirs.mapM (step? t goal last)).flatten
      | .group before inside after => do
        let (dirs, front) ← match lastCut [] before.reverse with
          | .slash dirPart front => (find? t fuel .directories dir dirPart).map (·, front)
          | _ => some ([dir], before)
        let found ← dirs.mapM fun d => do
          let ways ← (choices inside).mapM fun a => find? t fuel goal d (front ++ a ++ after)
          return ways.flatten.eraseDups
        return found.flatten

/-! ## Files -/

/-- The directory part of a pattern that needs no matching, and the rest: the cut is at the last
slash before the first mark with a meaning of its own. -/
def splitBase (ms : List Mark) : Option (List Mark) × List Mark :=
  let fixed := ms.takeWhile (!isMeta ·)
  let tail := (fixed.reverse.takeWhile (· ≠ sign '/')).reverse
  if tail.length = fixed.length then (none, ms)
  else (some (ms.take (fixed.length - tail.length - 1)), ms.drop (fixed.length - tail.length))

/-- The files below a directory that a pattern matches, by their paths. -/
def filesBelow? (fs : FileSystem) (base : Bytes) (ms : List Mark) : Option (List Bytes) :=
  match fs.stat base, fs.resolve base with
  | .ok .directory, .ok loc =>
    (find? ⟨fs.tree.below loc⟩ (ms.length + 1) .files [] ms).map fun found =>
      found.map fun place => Path.join base (Bytes.joined (utf8 "/") place)
  | _, _ => some []

/-- The files a pattern matches, in no particular order, or nothing if it is malformed. A pattern
that comes down to a dot or two is a plain path, and stands for whatever it leads to. -/
def files? (fs : FileSystem) (pattern : Bytes) : Option (List Bytes) :=
  if pattern.isEmpty then some []
  else
    let cleaned := Path.clean pattern
    match marks? (Glyph.decode cleaned) with
    | none => none
    | some ms =>
      let (base, rest) := splitBase ms
      if rest.isEmpty || rest == [sign '.'] || rest == [sign '.', sign '.'] then
        some (match fs.stat cleaned with
          | .ok _ => [cleaned]
          | .error _ => [])
      else if !isWellFormed rest then none
      else
        let baseText := match base with
          | none => Path.here
          | some [] => utf8 "/"
          | some b => unescape b
        filesBelow? fs baseText rest

end Glob

end ZincBind

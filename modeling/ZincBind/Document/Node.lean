import ZincBind.Document.Tag
import ZincBind.Document.Token

/-!
# ZincBind.Document.Node

The tree a document's tokens describe. An alias keeps the number of the anchored node it stands
for, and the document keeps the anchored nodes; an alias may stand inside the very node it names.
-/

namespace ZincBind

namespace Document

/-- A node of a document. Lines are counted from one. -/
inductive Node where
  | scalar (line : Nat) (tag text : Bytes)
  | sequence (line : Nat) (tag : Bytes) (items : List Node)
  | mapping (line : Nat) (tag : Bytes) (entries : List (Node × Node))
  | alias (line : Nat) (name : Bytes) (target : Nat)
deriving Repr

/-- The line a node starts on. -/
def Node.line : Node → Nat
  | .scalar line .. => line
  | .sequence line .. => line
  | .mapping line .. => line
  | .alias line .. => line

/-- A document: its root and its anchored nodes. -/
structure Tree where
  /-- The outermost node. -/
  root : Node
  /-- The anchored nodes by number. -/
  anchored : List (Nat × Node)
  /-- A bound on the number of nodes. -/
  size : Nat
deriving Repr

/-- The node that an alias stands for; other nodes stand for themselves. -/
def Tree.target? (t : Tree) : Node → Option Node
  | .alias _ _ target => t.anchored.lookup target
  | n => some n

/-! ## Building -/

/-- The state of building a tree. -/
structure Builder where
  /-- The tokens to come. -/
  tokens : List Token
  /-- Tag handles and what they stand for, the ones that count first. -/
  handles : List (Bytes × Bytes)
  /-- The numbers of the anchors in force, latest first. -/
  names : List (Bytes × Nat)
  /-- The anchored nodes that are complete. -/
  anchored : List (Nat × Node)
  /-- The number of the next anchor. -/
  next : Nat

/-- A step of building; none if the tokens make no document. -/
abbrev Build := StateT Builder Option

namespace Build

/-- The next token. -/
def peek : Build Token := fun b =>
  match b.tokens with
  | t :: _ => if t.kind = .malformed then none else some (t, b)
  | [] => none

/-- Pass the next token. -/
def skip : Build Unit := fun b => some ((), { b with tokens := b.tokens.drop 1 })

/-- Pass the next token if it is the given one. -/
def skipIf (kind : TokenKind) : Build Bool := do
  let t ← peek
  if t.kind = kind then
    skip
    return true
  else return false

/-- No document. -/
def fail {α : Type} : Build α := fun _ => none

/-- What a tag stands for. -/
def expandTag (handle suffix : Bytes) : Build Bytes := fun b =>
  if handle.isEmpty then some (suffix, b)
  else (b.handles.lookup handle).map fun uri => (uri ++ suffix, b)

/-- The anchor and the tag in front of a node, either of them first. -/
structure Properties where
  /-- The line of the first of them, or of the node itself. -/
  line : Nat
  /-- The anchor. -/
  anchor : Option Bytes
  /-- The tag; empty if there is none. -/
  tag : Bytes

/-- Read an anchor, if there is one. -/
def anchor : Build (Option Bytes) := do
  let t ← peek
  match t.kind with
  | .anchor name => skip; return some name
  | _ => return none

/-- Read a tag, if there is one. -/
def tag : Build (Option (Bytes × Bytes)) := do
  let t ← peek
  match t.kind with
  | .tag handle suffix => skip; return some (handle, suffix)
  | _ => return none

/-- Read the properties of a node. -/
def properties : Build Properties := do
  let t ← peek
  let first ← anchor
  let given ← tag
  let second ← if first.isNone && given.isSome then anchor else pure none
  let full ← match given with
    | some (handle, suffix) => expandTag handle suffix
    | none => pure []
  return ⟨t.line + 1, first <|> second, full⟩

/-- Number an anchor, so that aliases can find it from here on. -/
def declare (name : Option Bytes) : Build (Option Nat) := fun b =>
  match name with
  | none => some (none, b)
  | some n => some (some b.next, { b with names := (n, b.next) :: b.names, next := b.next + 1 })

/-- Keep a node that has an anchor. -/
def keep (number : Option Nat) (n : Node) : Build Node := fun b =>
  match number with
  | none => some (n, b)
  | some k => some (n, { b with anchored := (k, n) :: b.anchored })

/-- The anchor an alias names. -/
def lookup (name : Bytes) : Build Nat := fun b => (b.names.lookup name).map (·, b)

/-- Whether a tag leaves the type of a node to the node itself. -/
def isOpen (tag : Bytes) : Bool := tag.isEmpty || tag == utf8 "!"

/-- The tag of a collection. -/
def collectionTag (own given : Bytes) : Bytes := if isOpen given then own else Tag.shorten given

/-- The tag of a scalar: as given, or a string unless it is plain, or what its text shows. -/
def scalarTag (given text : Bytes) (plain : Bool) : Bytes :=
  if !isOpen given then Tag.shorten given
  else if !plain then Tag.str
  else if text = utf8 "<<" then Tag.merge
  else (ScalarType.ofText text).tag

/-- The scalar that stands where a node is left out, on a line counted from zero. -/
def absent (line : Nat) : Node := .scalar (line + 1) Tag.null []

/-- Which collections a node may start, beside those in brackets. -/
inductive Context where
  /-- Inside brackets. -/
  | flow
  /-- In a block. -/
  | block
  /-- In a block where a sequence need not be indented. -/
  | loose
deriving DecidableEq

/-- Whether a token of one of these kinds is next. -/
def nextIn (kinds : List TokenKind) : Build Bool := do
  let t ← peek
  return kinds.contains t.kind

/-- Tokens after which a key or a value in a block is left out. -/
def blockStops : List TokenKind := [.key, .value, .blockEnd]

mutual

/-- Read a node. -/
def node : Nat → Context → Build Node
  | 0, _ => fail
  | fuel + 1, ctx => do
    let t ← peek
    match t.kind with
    | .alias name =>
      skip
      let target ← lookup name
      return .alias (t.line + 1) name target
    | _ =>
      let p ← properties
      let number ← declare p.anchor
      let t ← peek
      match t.kind with
      | .scalar text plain =>
        skip
        keep number (.scalar p.line (scalarTag p.tag text plain) text)
      | .flowSequenceStart =>
        skip
        let items ← flowItems fuel true
        keep number (.sequence p.line (collectionTag Tag.seq p.tag) items)
      | .flowMappingStart =>
        skip
        let entries ← flowEntries fuel true
        keep number (.mapping p.line (collectionTag Tag.map p.tag) entries)
      | kind =>
        if ctx = .loose ∧ kind = .blockEntry then
          let items ← looseItems fuel
          keep number (.sequence p.line (collectionTag Tag.seq p.tag) items)
        else if ctx ≠ .flow ∧ kind = .blockSequenceStart then
          skip
          let items ← blockItems fuel
          keep number (.sequence p.line (collectionTag Tag.seq p.tag) items)
        else if ctx ≠ .flow ∧ kind = .blockMappingStart then
          skip
          let entries ← blockEntries fuel
          keep number (.mapping p.line (collectionTag Tag.map p.tag) entries)
        else if p.anchor.isSome || !p.tag.isEmpty then
          keep number (.scalar p.line (scalarTag p.tag [] true) [])
        else fail

/-- The items of an indented block sequence. -/
def blockItems : Nat → Build (List Node)
  | 0 => fail
  | fuel + 1 => do
    let t ← peek
    if t.kind = .blockEntry then
      skip
      let item ←
        if ← nextIn [.blockEntry, .blockEnd] then pure (absent t.line) else node fuel .block
      return item :: (← blockItems fuel)
    else if t.kind = .blockEnd then
      skip
      return []
    else fail

/-- The items of a block sequence at the indentation of its parent. -/
def looseItems : Nat → Build (List Node)
  | 0 => fail
  | fuel + 1 => do
    let t ← peek
    if t.kind = .blockEntry then
      skip
      let item ←
        if ← nextIn (.blockEntry :: blockStops) then pure (absent t.line) else node fuel .block
      return item :: (← looseItems fuel)
    else return []

/-- The entries of a block mapping. -/
def blockEntries : Nat → Build (List (Node × Node))
  | 0 => fail
  | fuel + 1 => do
    let t ← peek
    if t.kind = .key then
      skip
      let key ← if ← nextIn blockStops then pure (absent t.line) else node fuel .loose
      let v ← peek
      let value ←
        if v.kind = .value then do
          skip
          if ← nextIn blockStops then pure (absent v.line) else node fuel .loose
        else pure (absent v.line)
      return (key, value) :: (← blockEntries fuel)
    else if t.kind = .blockEnd then
      skip
      return []
    else fail

/-- The items of a sequence in brackets; `first` before any of them. -/
def flowItems : Nat → Bool → Build (List Node)
  | 0, _ => fail
  | fuel + 1, first => do
    if ← skipIf .flowSequenceEnd then return []
    else
      let parted ← if first then pure true else skipIf .flowEntry
      if parted then
        let t ← peek
        if t.kind = .key then
          skip
          let entry ← flowPair fuel
          return .mapping (t.line + 1) Tag.map [entry] :: (← flowItems fuel false)
        else if ← skipIf .flowSequenceEnd then return []
        else
          let item ← node fuel .flow
          return item :: (← flowItems fuel false)
      else fail

/-- The single entry of a mapping inside a sequence in brackets. Where its key is left out, the
token that shows this is passed. -/
def flowPair : Nat → Build (Node × Node)
  | 0 => fail
  | fuel + 1 => do
    let t ← peek
    let key ←
      if ← nextIn [.value, .flowEntry, .flowSequenceEnd] then do
        skip
        pure (absent t.line)
      else node fuel .flow
    let passed ← skipIf .value
    let v ← peek
    let value ←
      if passed && !(← nextIn [.flowEntry, .flowSequenceEnd]) then node fuel .flow
      else pure (absent v.line)
    return (key, value)

/-- The entries of a mapping in braces; `first` before any of them. -/
def flowEntries : Nat → Bool → Build (List (Node × Node))
  | 0, _ => fail
  | fuel + 1, first => do
    if ← skipIf .flowMappingEnd then return []
    else
      let parted ← if first then pure true else skipIf .flowEntry
      if parted then
        if ← skipIf .key then
          let t ← peek
          let key ←
            if ← nextIn [.value, .flowEntry, .flowMappingEnd] then pure (absent t.line)
            else node fuel .flow
          let passed ← skipIf .value
          let v ← peek
          let value ←
            if passed && !(← nextIn [.flowEntry, .flowMappingEnd]) then node fuel .flow
            else pure (absent v.line)
          return (key, value) :: (← flowEntries fuel false)
        else if ← skipIf .flowMappingEnd then return []
        else
          let key ← node fuel .flow
          let v ← peek
          return (key, absent v.line) :: (← flowEntries fuel false)
      else fail

end

/-! ## Documents -/

/-- The tag handles that need no directive. -/
def standardHandles : List (Bytes × Bytes) :=
  [(utf8 "!", utf8 "!"), (utf8 "!!", Tag.standard)]

/-- Read directives: at most one version, which has to be 1.1, and no tag handle twice. -/
def directives : Nat → Bool → List (Bytes × Bytes) → Build (List (Bytes × Bytes))
  | 0, _, _ => fail
  | fuel + 1, versioned, handles => do
    let t ← peek
    match t.kind with
    | .versionDirective major minor =>
      if versioned || major != 1 || minor != 1 then fail
      else
        skip
        directives fuel true handles
    | .tagDirective handle uri =>
      if (handles.lookup handle).isSome then fail
      else
        skip
        directives fuel versioned ((handle, uri) :: handles)
    | _ => return handles

/-- Whether a token belongs to what comes around a document's content. -/
def isAround : TokenKind → Bool
  | .versionDirective .. => true
  | .tagDirective .. => true
  | .documentStart => true
  | .documentEnd => true
  | .streamEnd => true
  | _ => false

/-- Read the first document: its root, or none if the stream holds no document. A document that
starts without a marker has to have content, and the token after the content has to make sense. -/
def document (fuel : Nat) : Build (Option Node) := do
  let t ← peek
  if t.kind = .streamEnd then return none
  else if isAround t.kind && t.kind != .documentEnd then
    let handles ← directives fuel false []
    if !(← skipIf .documentStart) then fail
    modify fun b => { b with handles := handles ++ standardHandles }
    let t ← peek
    let root ← if isAround t.kind then pure (absent t.line) else node fuel .block
    let _ ← peek
    return some root
  else
    let root ← node fuel .block
    let _ ← peek
    return some root

end Build

/-- The first document of a stream's tokens: nothing outside if the tokens make none, nothing
inside if the stream is empty. -/
def Tree.ofTokens? (ts : List Token) : Option (Option Tree) := do
  let fuel := 2 * ts.length + 2
  let (root, b) ← (Build.document fuel).run ⟨ts, Build.standardHandles, [], [], 0⟩
  some (root.map fun r => ⟨r, b.anchored, ts.length⟩)

end Document

end ZincBind

import ZincBind.Document.Lexeme

/-!
# ZincBind.Document.TokenStream

Cutting a character stream into tokens. Two things make this more than reading lexemes one by
one: in block context the indentation opens and closes collections, and a mapping key is known
for one only when its colon turns up, which puts a `key` token in front of tokens already read.
-/

namespace ZincBind

namespace Document

/-! ## State -/

/-- A token that may turn out to be a mapping key. -/
structure KeyCandidate where
  /-- Whether it has to be one: it stands where the enclosing block mapping has its keys. -/
  required : Bool
  /-- Its position among the tokens. -/
  position : Nat
  /-- Its place in the stream. -/
  index : Nat
  /-- Its line. -/
  line : Nat
  /-- Its column. -/
  column : Nat

/-- The state between two tokens. -/
structure TokenState where
  /-- Where reading goes on. -/
  cursor : Cursor
  /-- The tokens so far. -/
  tokens : Array Token
  /-- The indentation of the innermost block collection, if there is one. -/
  indent : Option Nat
  /-- The indentations around it, innermost first. -/
  outer : List (Option Nat)
  /-- The key candidate of the innermost flow collection, or of the block context. -/
  candidate : Option KeyCandidate
  /-- The candidates around it: one for every flow collection that is open. -/
  enclosing : List (Option KeyCandidate)
  /-- Whether a key may start here. -/
  keyAllowed : Bool

namespace TokenState

/-- The state at the start of a stream. -/
def start (cs : List Char) : TokenState :=
  ⟨Cursor.start cs, #[], none, [], none, [], true⟩

/-- Whether a flow collection is open. -/
def inFlow (s : TokenState) : Bool := !s.enclosing.isEmpty

/-- Add a token that starts here. -/
def push (s : TokenState) (kind : TokenKind) : TokenState :=
  { s with tokens := s.tokens.push ⟨kind, s.cursor.line⟩ }

/-- Add a token for the next `n` characters and pass them. -/
def pushOver (s : TokenState) (kind : TokenKind) (n : Nat) : TokenState :=
  { s.push kind with cursor := s.cursor.skip n }

/-! ## Indentation -/

/-- Open a block collection at a column right of the current indentation; its token goes to a
position among the tokens. -/
def indentTo (s : TokenState) (column position line : Nat) (kind : TokenKind) : TokenState :=
  if s.inFlow || s.indent.any (column ≤ ·) then s
  else
    { s with
      tokens := s.tokens.insertIdxIfInBounds position ⟨kind, line⟩
      indent := some column
      outer := s.indent :: s.outer }

/-- Open a block collection here. -/
def indentHere (s : TokenState) (kind : TokenKind) : TokenState :=
  s.indentTo s.cursor.column s.tokens.size s.cursor.line kind

/-- Close the block collections whose indentation is not kept to. With no column given, all of
them. -/
def dedentBy (column : Option Nat) : List (Option Nat) → TokenState → TokenState
  | [], s => s
  | next :: rest, s =>
    if s.indent.any fun i => column.all (· < i) then
      dedentBy column rest { s.push .blockEnd with indent := next, outer := rest }
    else s

/-- Close the block collections that end at a column; in flow context indentation says nothing. -/
def dedentTo (s : TokenState) (column : Option Nat) : TokenState :=
  if s.inFlow then s else dedentBy column s.outer s

/-! ## Key candidates -/

/-- Whether a candidate can still become a key: the colon has to come on its line, and within 1024
characters. -/
def inReach (s : TokenState) (k : KeyCandidate) : Bool :=
  k.line == s.cursor.line && s.cursor.index ≤ k.index + 1024

/-- Give the current candidate up. That is an error if it had to be a key. -/
def dropCandidate? (s : TokenState) : Option TokenState :=
  if s.candidate.any (·.required) then none else some { s with candidate := none }

/-- Make the token that comes next a candidate, if a key may start here. -/
def saveCandidate? (s : TokenState) : Option TokenState :=
  if s.keyAllowed then do
    let s ← s.dropCandidate?
    let required := !s.inFlow && s.indent == some s.cursor.column
    some { s with
      candidate := some
        ⟨required, s.tokens.size, s.cursor.index, s.cursor.line, s.cursor.column⟩ }
  else some s

/-! ## Between tokens -/

/-- Pass a comment, and the comments after it with nothing but blanks, line feeds and carriage
returns in between. -/
def skipComments : Nat → Cursor → Cursor
  | 0, c => c
  | fuel + 1, c =>
    let c := c.skipLineText
    let next := c.skipWhile fun ch => isBlank ch || ch == '\n' || ch == '\r'
    if next.at? '#' then skipComments fuel next else c

/-- Pass blanks, comments and line breaks. A tab counts as blank only where no block key may
start. -/
def skipToToken : Nat → TokenState → TokenState
  | 0, s => s
  | fuel + 1, s =>
    let c := s.cursor
    let c := if c.column == 0 && c.peek.any isMark then c.advance else c
    let tabs := s.inFlow || !s.keyAllowed
    let c := c.skipWhile fun ch => ch == ' ' || (tabs && ch == '\t')
    let c := if c.at? '#' then skipComments c.rest.length c else c
    if c.peek.any isBreak then
      skipToToken fuel { s with cursor := c.advance, keyAllowed := s.keyAllowed || !s.inFlow }
    else { s with cursor := c }

/-- Pass the comment that follows a token on its line. -/
def skipLineComment (s : TokenState) : TokenState :=
  if s.cursor.fresh || s.tokens.back?.any (·.kind == .blockEntry) then s
  else
    let c := s.cursor.skipWhile isBlank
    if c.at? '#' then { s with cursor := c.skipLineText } else s

/-! ## Tokens -/

/-- The end of the stream. -/
def streamEnd? (s : TokenState) : Option TokenState := do
  let s ← (s.dedentTo none).dropCandidate?
  some { s.push .streamEnd with keyAllowed := false }

/-- A directive or a document marker: everything open is closed first. -/
def topLevel? (s : TokenState) (f : TokenState → Option TokenState) : Option TokenState := do
  let s ← (s.dedentTo none).dropCandidate?
  f { s with keyAllowed := false }

/-- A directive. -/
def directiveToken? (s : TokenState) : Option TokenState :=
  s.topLevel? fun s => do
    let (kind, c) ← directive? s.cursor
    some { s.push kind with cursor := c }

/-- The start of a flow collection. -/
def flowStart? (s : TokenState) (kind : TokenKind) : Option TokenState := do
  let s ← s.saveCandidate?
  some { s.pushOver kind 1 with
    candidate := none, enclosing := s.candidate :: s.enclosing, keyAllowed := true }

/-- The end of a flow collection. -/
def flowEnd? (s : TokenState) (kind : TokenKind) : Option TokenState := do
  let s ← s.dropCandidate?
  let s := match s.enclosing with
    | [] => s
    | k :: ks => { s with candidate := k, enclosing := ks }
  some { s.pushOver kind 1 with keyAllowed := false }

/-- A comma. -/
def flowComma? (s : TokenState) : Option TokenState := do
  let s ← s.dropCandidate?
  some { s.pushOver .flowEntry 1 with keyAllowed := true }

/-- A sequence dash. -/
def blockDash? (s : TokenState) : Option TokenState :=
  if !s.inFlow && !s.keyAllowed then none
  else do
    let s ← (s.indentHere .blockSequenceStart).dropCandidate?
    some { s.pushOver .blockEntry 1 with keyAllowed := true }

/-- A question mark. -/
def keyToken? (s : TokenState) : Option TokenState :=
  if !s.inFlow && !s.keyAllowed then none
  else do
    let s ← (s.indentHere .blockMappingStart).dropCandidate?
    some { s.pushOver .key 1 with keyAllowed := !s.inFlow }

/-- A colon. If a candidate is in reach it was a key, and its `key` token goes in front of it. -/
def valueToken? (s : TokenState) : Option TokenState :=
  match s.candidate with
  | some k =>
    if s.inReach k then
      let s := { s with
        tokens := s.tokens.insertIdxIfInBounds k.position ⟨.key, k.line⟩, candidate := none }
      let s := s.indentTo k.column k.position k.line .blockMappingStart
      some { s.pushOver .value 1 with keyAllowed := false }
    else if k.required then none
    else complexValue? { s with candidate := none }
  | none => complexValue? s
where
  /-- A colon after a key that was marked as one. -/
  complexValue? (s : TokenState) : Option TokenState :=
    if !s.inFlow && !s.keyAllowed then none
    else
      let s := s.indentHere .blockMappingStart
      some { s.pushOver .value 1 with keyAllowed := !s.inFlow }

/-- A token that may be a key, or a part of one. -/
def candidateToken? (s : TokenState) (f : Cursor → Option (TokenKind × Cursor)) :
    Option TokenState := do
  let s ← s.saveCandidate?
  let (kind, c) ← f s.cursor
  some { s.push kind with cursor := c, keyAllowed := false }

/-- A plain scalar. A line break after it lets a key start. -/
def plainToken? (s : TokenState) : Option TokenState := do
  let s ← s.saveCandidate?
  let (text, broken, c) ← plain? s.inFlow (s.indent.elim 0 (· + 1)) s.cursor
  some { s.push (.scalar text true) with cursor := c, keyAllowed := broken }

/-- A block scalar. -/
def blockToken? (s : TokenState) (literal : Bool) : Option TokenState := do
  let s ← s.dropCandidate?
  let (text, c) ← block? literal s.indent s.cursor
  some { s.push (.scalar text false) with cursor := c, keyAllowed := true }

/-- Whether a plain scalar may start here. -/
def startsPlain (s : TokenState) (ch : Char) : Bool :=
  if ch == '-' then !(s.cursor.ahead 1).any isBlank
  else if ch == '?' || ch == ':' then !s.inFlow && !s.cursor.gapAhead 1
  else !isBlank ch && !isBreak ch && !",[]\x7b\x7d#&*!|>'\"%@\x60".contains ch

/-- The token that a character starts. -/
def token? (s : TokenState) (ch : Char) : Option TokenState :=
  let c := s.cursor
  let gap := c.gapAhead 1
  match ch with
  | '[' => s.flowStart? .flowSequenceStart
  | '\x7b' => s.flowStart? .flowMappingStart
  | ']' => s.flowEnd? .flowSequenceEnd
  | '\x7d' => s.flowEnd? .flowMappingEnd
  | ',' => s.flowComma?
  | '*' => s.candidateToken? fun c => (anchor? c).map fun (name, c) => (.alias name, c)
  | '&' => s.candidateToken? fun c => (anchor? c).map fun (name, c) => (.anchor name, c)
  | '!' => s.candidateToken? tag?
  | '\'' => s.candidateToken? fun c => (quoted? true c).map fun (t, c) => (.scalar t false, c)
  | '"' => s.candidateToken? fun c => (quoted? false c).map fun (t, c) => (.scalar t false, c)
  | _ =>
    if ch == '-' && gap then s.blockDash?
    else if ch == '?' && (s.inFlow || gap) then s.keyToken?
    else if ch == ':' && (s.inFlow || gap) then s.valueToken?
    else if ch == '|' && !s.inFlow then s.blockToken? true
    else if ch == '>' && !s.inFlow then s.blockToken? false
    else if s.startsPlain ch then s.plainToken?
    else none

/-- Read the next token, with the tokens its indentation brings along. -/
def next? (s : TokenState) : Option TokenState :=
  let s := skipToToken (s.cursor.rest.length + 1) s
  let s := s.dedentTo (some s.cursor.column)
  match s.cursor.peek with
  | none => s.streamEnd?
  | some ch =>
    if s.cursor.column == 0 && ch == '%' then s.directiveToken?
    else if s.cursor.atMarker '-' then s.topLevel? fun s => some (s.pushOver .documentStart 3)
    else if s.cursor.atMarker '.' then s.topLevel? fun s => some (s.pushOver .documentEnd 3)
    else (s.token? ch).map skipLineComment

/-- Read tokens to the end of the stream, or as far as they make sense. -/
def run : Nat → TokenState → TokenState
  | 0, s => s
  | fuel + 1, s =>
    match s.next? with
    | none => s
    | some s => if s.tokens.back?.any (·.kind == .streamEnd) then s else run fuel s

/-- Whether the token at a position waits for a colon. -/
def isWaiting (s : TokenState) (position : Nat) : Bool :=
  (s.candidate :: s.enclosing).any fun k =>
    k.any fun k => k.position == position && (k.required || s.inReach k)

/-- The tokens that can be used. Reading looks two tokens ahead, and a token that waits for its
colon looks further, so a malformed place is noticed that much earlier. -/
def usable (s : TokenState) : List Token :=
  let ts := s.tokens.toList
  if ts.getLast?.any (·.kind == .streamEnd) then ts
  else
    let positions := (List.range (ts.length - 2)).takeWhile fun i => !s.isWaiting i
    ts.take positions.length ++ [⟨.malformed, s.cursor.line⟩]

end TokenState

/-- The tokens of a stream. The last one is the end of the stream or the place from which it makes
no sense. -/
def tokens (cs : List Char) : List Token :=
  (TokenState.run (cs.length + 2) (TokenState.start cs)).usable

end Document

end ZincBind

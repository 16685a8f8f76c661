import ZincBind.Document.Cursor
import ZincBind.Document.Token

/-!
# ZincBind.Document.Lexeme

The texts inside tokens: anchors, tags, directives and the five styles of scalars. Every reader
takes the place where its text starts and gives what the text says with the place after it, or
nothing if the text is malformed.
-/

namespace ZincBind

namespace Document

/-- The bytes of a run of characters. -/
def encodeText (cs : List Char) : Bytes := cs.flatMap String.utf8EncodeChar

/-! ## Anchors and aliases -/

/-- The name after `&` or `*`. It is not empty, and a gap or an indicator follows it. -/
def anchor? (c : Cursor) : Option (Bytes × Cursor) :=
  let (name, c) := c.advance.takeWhile isAlpha
  if name.isEmpty then none
  else if c.gapAhead 0 || c.peek.any ("?:,]\x7d%@\x60".contains ·) then some (encodeText name, c)
  else none

/-! ## Tags -/

/-- Whether a character may stand in a tag. -/
def isTagChar (c : Char) : Bool := isAlpha c || ";/?:@&=+$,.!~*'()[]%".contains c

/-- The number of bytes a UTF-8 lead byte announces. -/
def announced? (b : Nat) : Option Nat :=
  if b < 0x80 then some 1
  else if b / 32 == 6 then some 2
  else if b / 16 == 14 then some 3
  else if b / 8 == 30 then some 4
  else none

/-- An octet written as `%` and two hexadecimal digits. -/
def octet? (c : Cursor) : Option (Nat × Cursor) :=
  match c.rest with
  | '%' :: x :: y :: _ => do
    let hi ← hexValue? x
    let lo ← hexValue? y
    some (hi * 16 + lo, c.skip 3)
  | _ => none

/-- A number of continuation octets. -/
def trailOctets? : Nat → Cursor → Option (Bytes × Cursor)
  | 0, c => some ([], c)
  | n + 1, c => do
    let (b, c) ← octet? c
    if b / 64 == 2 then
      let (bs, c) ← trailOctets? n c
      some (UInt8.ofNat b :: bs, c)
    else none

/-- The octets of one escaped character. -/
def escapedChar? (c : Cursor) : Option (Bytes × Cursor) := do
  let (b, c) ← octet? c
  let width ← announced? b
  let (bs, c) ← trailOctets? (width - 1) c
  some (UInt8.ofNat b :: bs, c)

/-- Tag characters with their escapes undone, at most `fuel` of them. -/
def tagText? : Nat → Cursor → Option (Bytes × Cursor)
  | 0, c => some ([], c)
  | fuel + 1, c =>
    match c.peek with
    | some '%' => do
      let (bs, c) ← escapedChar? c
      let (more, c) ← tagText? fuel c
      some (bs ++ more, c)
    | some ch =>
      if isTagChar ch then do
        let (more, c) ← tagText? fuel c.advance
        some (String.utf8EncodeChar ch ++ more, c)
      else some ([], c)
    | none => some ([], c)

/-- The rest of a tag after what was read of it as a handle. Without such a head it is not
empty. -/
def tagUri? (head : Bytes) (c : Cursor) : Option (Bytes × Cursor) := do
  let (text, c') ← tagText? c.rest.length c
  if head.isEmpty && c'.index == c.index then none else some (head.drop 1 ++ text, c')

/-- A tag handle: `!`, name characters, and a second `!` if one follows. -/
def tagHandle? (c : Cursor) : Option (Bytes × Cursor) :=
  if c.at? '!' then
    let (name, c) := c.advance.takeWhile isAlpha
    if c.at? '!' then some (utf8 "!" ++ encodeText name ++ utf8 "!", c.advance)
    else some (utf8 "!" ++ encodeText name, c)
  else none

/-- Whether a handle is complete, with a mark at both ends. -/
def isFullHandle (handle : Bytes) : Bool :=
  1 < handle.length && handle.getLast? == some (byte '!')

/-- A tag in one of its forms `!<uri>`, `!handle!suffix`, `!suffix` and `!`. -/
def tag? (c : Cursor) : Option (TokenKind × Cursor) := do
  let (kind, c) ←
    if c.ahead 1 == some '<' then do
      let (uri, c) ← tagUri? [] (c.skip 2)
      if c.at? '>' then some (TokenKind.tag [] uri, c.advance) else none
    else do
      let (handle, c) ← tagHandle? c
      if isFullHandle handle then
        let (suffix, c) ← tagUri? [] c
        some (TokenKind.tag handle suffix, c)
      else
        let (suffix, c) ← tagUri? handle c
        if suffix.isEmpty then some (TokenKind.tag [] (utf8 "!"), c)
        else some (TokenKind.tag (utf8 "!") suffix, c)
  if c.gapAhead 0 then some (kind, c) else none

/-! ## Directives -/

/-- A number of at most two digits. -/
def versionNumber? (c : Cursor) : Option (Nat × Cursor) :=
  let (digits, c) := c.takeWhile Char.isDigit
  if digits.isEmpty || 2 < digits.length then none
  else some (digits.foldl (fun n d => n * 10 + (d.toNat - '0'.toNat)) 0, c)

/-- The two numbers of a version directive. -/
def version? (c : Cursor) : Option (TokenKind × Cursor) := do
  let (major, c) ← versionNumber? (c.skipWhile isBlank)
  if c.at? '.' then
    let (minor, c) ← versionNumber? c.advance
    some (.versionDirective major minor, c)
  else none

/-- The handle and the text it stands for. -/
def tagDirective? (c : Cursor) : Option (TokenKind × Cursor) := do
  let (handle, c) ← tagHandle? (c.skipWhile isBlank)
  if !isFullHandle handle && handle != utf8 "!" then none
  else if c.peek.any isBlank then
    let (uri, c) ← tagUri? [] (c.skipWhile isBlank)
    if c.gapAhead 0 then some (.tagDirective handle uri, c) else none
  else none

/-- What may follow on a line that has said all it has to: blanks and a comment. -/
def lineRemainder? (c : Cursor) : Option Cursor :=
  let c := c.skipWhile isBlank
  let c := if c.at? '#' then c.skipLineText else c
  if c.atLineEnd then some c.advance else none

/-- A directive line. -/
def directive? (c : Cursor) : Option (TokenKind × Cursor) := do
  let (name, c) := c.advance.takeWhile isAlpha
  if name.isEmpty || !c.gapAhead 0 then none
  else
    let (kind, c) ←
      if name == "YAML".toList then version? c
      else if name == "TAG".toList then tagDirective? c
      else none
    let c ← lineRemainder? c
    some (kind, c)

/-! ## Blanks and line breaks inside scalars -/

/-- The blanks and line breaks between two pieces of a scalar. -/
structure Gap where
  /-- Blanks before any line break. -/
  blanks : List Char
  /-- Whether there was a line break. -/
  broken : Bool
  /-- The first line break. -/
  first : List Char
  /-- The line breaks after it. -/
  more : List Char

namespace Gap

/-- No gap. -/
def none : Gap := ⟨[], false, [], []⟩

/-- The gap after a line break that was escaped. -/
def escaped : Gap := ⟨[], true, [], []⟩

/-- What the gap stands for: its blanks on one line, a space for a single line feed, and the
further line breaks otherwise. -/
def folded (g : Gap) : List Char :=
  if !g.broken then g.blanks
  else if g.first == ['\n'] then if g.more.isEmpty then [' '] else g.more
  else g.first ++ g.more

/-- Read on while blanks and line breaks come. After a line break a tab left of the given column
is malformed. -/
def extend? (column : Nat) : Nat → Gap → Cursor → Option (Gap × Cursor)
  | 0, g, c => some (g, c)
  | fuel + 1, g, c =>
    match c.peek with
    | .none => some (g, c)
    | some ch =>
      if isBlank ch then
        if g.broken then
          if ch == '\t' && c.column < column then .none else extend? column fuel g c.advance
        else extend? column fuel { g with blanks := g.blanks ++ [ch] } c.advance
      else if isBreak ch then
        let text := [breakText ch]
        if g.broken then extend? column fuel { g with more := g.more ++ text } c.advance
        else
          extend? column fuel { blanks := [], broken := true, first := text, more := [] } c.advance
      else some (g, c)

end Gap

/-! ## Plain scalars -/

/-- The characters up to the next gap or indicator. A colon ends them only before a gap; inside
brackets so do the characters that structure them. -/
def plainRun (flow : Bool) : List Char → List Char
  | [] => []
  | c :: cs =>
    if isBlank c || isBreak c then []
    else if c == ':' && cs.head?.all (fun d => isBlank d || isBreak d) then []
    else if flow && ",?[]\x7b\x7d".contains c then []
    else c :: plainRun flow cs

/-- Read a plain scalar piece by piece. `text` is what has been read and `gap` what came after it,
which counts only if another piece follows. -/
def plainPieces? (flow : Bool) (column : Nat) :
    Nat → List Char → Gap → Cursor → Option (List Char × Gap × Cursor)
  | 0, text, gap, c => some (text, gap, c)
  | fuel + 1, text, gap, c =>
    if c.atDocumentMarker || c.at? '#' then some (text, gap, c)
    else
      let run := plainRun flow c.rest
      let (text, gap) := if run.isEmpty then (text, gap) else (text ++ gap.folded ++ run, Gap.none)
      let c := c.skip run.length
      if c.peek.any fun ch => isBlank ch || isBreak ch then do
        let (gap, c) ← Gap.extend? column c.rest.length gap c
        if !flow && c.column < column then some (text, gap, c)
        else plainPieces? flow column fuel text gap c
      else some (text, gap, c)

/-- A plain scalar that has to stay at or right of a column, and whether a line break follows
it. -/
def plain? (flow : Bool) (column : Nat) (c : Cursor) : Option (Bytes × Bool × Cursor) := do
  let (text, gap, c) ← plainPieces? flow column (c.rest.length + 1) [] Gap.none c
  some (encodeText text, gap.broken, c)

/-! ## Quoted scalars -/

/-- The character a letter after a backslash stands for. -/
def escapeLetter? (c : Char) : Option Char :=
  match c with
  | '0' => some (Char.ofNat 0)
  | 'a' => some (Char.ofNat 7)
  | 'b' => some (Char.ofNat 8)
  | 't' => some '\t'
  | '\t' => some '\t'
  | 'n' => some '\n'
  | 'v' => some (Char.ofNat 0xB)
  | 'f' => some (Char.ofNat 0xC)
  | 'r' => some '\r'
  | 'e' => some (Char.ofNat 0x1B)
  | ' ' => some ' '
  | '"' => some '"'
  | '\'' => some '\''
  | '\\' => some '\\'
  | 'N' => some (Char.ofNat 0x85)
  | '_' => some (Char.ofNat 0xA0)
  | 'L' => some (Char.ofNat 0x2028)
  | 'P' => some (Char.ofNat 0x2029)
  | _ => none

/-- The number of hexadecimal digits a letter after a backslash asks for. -/
def escapeWidth? (c : Char) : Option Nat :=
  match c with
  | 'x' => some 2
  | 'u' => some 4
  | 'U' => some 8
  | _ => none

/-- The number that a run of hexadecimal digits spells. -/
def hexNumber? (digits : List Char) : Option Nat :=
  digits.foldlM (fun n d => (hexValue? d).map (n * 16 + ·)) 0

/-- The character a backslash and what follows it stand for. -/
def escape? (c : Cursor) : Option (Char × Cursor) := do
  let letter ← c.ahead 1
  match escapeLetter? letter with
  | some ch => some (ch, c.skip 2)
  | none =>
    let width ← escapeWidth? letter
    let digits := (c.rest.drop 2).take width
    if digits.length < width then none
    else
      let n ← hexNumber? digits
      if (0xD800 ≤ n && n ≤ 0xDFFF) || 0x10FFFF < n then none
      else some (Char.ofNat n, c.skip (2 + width))

/-- Read a quoted piece up to the closing mark or the next gap, and whether it ends in an escaped
line break. -/
def quotedRun? (single : Bool) : Nat → Cursor → Option (List Char × Bool × Cursor)
  | 0, c => some ([], false, c)
  | fuel + 1, c =>
    match c.rest with
    | [] => some ([], false, c)
    | ch :: r =>
      if isBlank ch || isBreak ch then some ([], false, c)
      else if single && ch == '\'' then
        if r.head? == some '\'' then do
          let (text, escaped, c) ← quotedRun? single fuel (c.skip 2)
          some ('\'' :: text, escaped, c)
        else some ([], false, c)
      else if !single && ch == '"' then some ([], false, c)
      else if !single && ch == '\\' then
        if r.head?.any isBreak then some ([], true, c.advance.advance)
        else do
          let (e, c) ← escape? c
          let (text, escaped, c) ← quotedRun? single fuel c
          some (e :: text, escaped, c)
      else do
        let (text, escaped, c) ← quotedRun? single fuel c.advance
        some (ch :: text, escaped, c)

/-- Read a quoted scalar piece by piece up to its closing mark. -/
def quotedPieces? (single : Bool) : Nat → List Char → Cursor → Option (List Char × Cursor)
  | 0, _, _ => none
  | fuel + 1, text, c =>
    if c.atDocumentMarker || c.rest.isEmpty then none
    else do
      let (run, escaped, c) ← quotedRun? single c.rest.length c
      let text := text ++ run
      if c.at? (if single then '\'' else '"') then some (text, c.advance)
      else
        let (gap, c) ←
          Gap.extend? 0 c.rest.length (if escaped then Gap.escaped else Gap.none) c
        quotedPieces? single fuel (text ++ gap.folded) c

/-- A quoted scalar. -/
def quoted? (single : Bool) (c : Cursor) : Option (Bytes × Cursor) := do
  let (text, c) ← quotedPieces? single (c.rest.length + 1) [] c.advance
  some (encodeText text, c)

/-! ## Block scalars -/

/-- What happens to the line breaks at the end of a block scalar. -/
inductive Chomping where
  /-- One line break is kept. -/
  | clip
  /-- None is kept. -/
  | strip
  /-- All are kept. -/
  | keep
deriving DecidableEq

/-- The mark of a chomping rule. -/
def chomping? (c : Char) : Option Chomping :=
  match c with
  | '+' => some .keep
  | '-' => some .strip
  | _ => none

/-- An indentation digit, which is not zero; `none` outside if it is. -/
def indentDigit? (c : Cursor) : Option (Nat × Cursor) :=
  match c.peek with
  | some d =>
    if d.isDigit then if d == '0' then none else some (d.toNat - '0'.toNat, c.advance)
    else some (0, c)
  | none => some (0, c)

/-- A chomping mark, if there is one. -/
def chompingMark (c : Cursor) : Chomping × Cursor :=
  match c.peek.bind chomping? with
  | some m => (m, c.advance)
  | none => (.clip, c)

/-- The head of a block scalar after its indicator: a chomping mark and an indentation digit in
either order, zero standing for none. -/
def blockHead? (c : Cursor) : Option (Chomping × Nat × Cursor) :=
  if (c.peek.bind chomping?).isSome then do
    let (m, c) := chompingMark c
    let (digit, c) ← indentDigit? c
    some (m, digit, c)
  else do
    let (digit, c) ← indentDigit? c
    if digit == 0 then some (.clip, 0, c)
    else
      let (m, c) := chompingMark c
      some (m, digit, c)

/-- Pass the indentation spaces and empty lines before the next line of a block scalar: the line
breaks, the widest column reached and the place. With `indent` zero the indentation is not known
yet and every space counts. -/
def blockBreaks? (indent : Nat) : Nat → List Char → Nat → Cursor → Option (List Char × Nat × Cursor)
  | 0, breaks, widest, c => some (breaks, widest, c)
  | fuel + 1, breaks, widest, c =>
    let open_ := fun (c : Cursor) => indent == 0 || c.column < indent
    match c.peek with
    | some ' ' =>
      if open_ c then blockBreaks? indent fuel breaks (max widest (c.column + 1)) c.advance
      else some (breaks, widest, c)
    | some '\t' => if open_ c then none else some (breaks, widest, c)
    | some ch =>
      if isBreak ch then blockBreaks? indent fuel (breaks ++ [breakText ch]) widest c.advance
      else some (breaks, widest, c)
    | none => some (breaks, widest, c)

/-- What has been read of a block scalar. -/
structure BlockText where
  /-- The text of the lines so far. -/
  text : List Char
  /-- The line break after them. -/
  leading : List Char
  /-- The line breaks after that one. -/
  trailing : List Char
  /-- Whether the last line began with a blank. -/
  indented : Bool

/-- Read the lines of a block scalar. A folded one joins two lines that do not begin with a blank
by a space. -/
def blockLines? (literal : Bool) (indent : Nat) :
    Nat → BlockText → Cursor → Option (BlockText × Cursor)
  | 0, b, c => some (b, c)
  | fuel + 1, b, c =>
    if c.column == indent && !c.rest.isEmpty then do
      let blank := c.peek.any isBlank
      let joint :=
        if !literal && !b.indented && !blank && b.leading == ['\n'] then
          if b.trailing.isEmpty then [' '] else []
        else b.leading
      let (line, c) := c.takeWhile fun ch => !isBreak ch
      let leading := (c.peek.map breakText).toList
      let c := c.advance
      let (trailing, _, c) ← blockBreaks? indent c.rest.length [] 0 c
      blockLines? literal indent fuel
        ⟨b.text ++ joint ++ b.trailing ++ line, leading, trailing, blank⟩ c
    else some (b, c)

/-- A block scalar whose surroundings are indented to `outer`, or not at all. -/
def block? (literal : Bool) (outer : Option Nat) (c : Cursor) : Option (Bytes × Cursor) := do
  let (chomping, digit, c) ← blockHead? c.advance
  let c ← lineRemainder? c
  let given := if digit == 0 then 0 else outer.getD 0 + digit
  let (breaks, widest, c) ← blockBreaks? given c.rest.length [] 0 c
  let indent := if given == 0 then max widest (max (outer.elim 0 (· + 1)) 1) else given
  let (b, c) ← blockLines? literal indent (c.rest.length + 1) ⟨[], [], breaks, false⟩ c
  let tail := match chomping with
    | .strip => []
    | .clip => b.leading
    | .keep => b.leading ++ b.trailing
  some (encodeText (b.text ++ tail), c)

end Document

end ZincBind

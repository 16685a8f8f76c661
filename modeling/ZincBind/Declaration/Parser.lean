import ZincBind.Declaration.Identifier
import ZincBind.Declaration.Predicate
import ZincBind.Text.Blank

/-!
# ZincBind.Declaration.Parser

Reading one declaration such as

```
predicate int_lin_eq(array [int] of int: as, array [int] of var int: bs, int: c)
```

Three kinds of blank meet in a line. The gap after the keyword is ASCII white space including
line feeds, the tail of the line loses spaces, tabs and carriage returns, and the two halves of
an argument are trimmed of every Unicode blank.

A rejected line says which stage turned it down and on which piece of text.
-/

namespace ZincBind

/-- The stage of the grammar that rejects a text. -/
inductive Rejection where
  /-- The text is no name. -/
  | identifier
  /-- The text spells no argument type. -/
  | type
  /-- The text is not a type and a name with a colon between them. -/
  | argument
  /-- The line does not have the shape of a declaration. -/
  | predicate
deriving DecidableEq, Repr

/-- What a rejected text fails to be. -/
def Rejection.message : Rejection → Bytes
  | .identifier => utf8 "not a valid identifier"
  | .type => utf8 "not a valid arg type"
  | .argument => utf8 "not a valid arg"
  | .predicate => utf8 "not a valid predicate"

/-- A rejected piece of text and the stage that rejects it. -/
structure ParseError where
  /-- The stage. -/
  rejection : Rejection
  /-- The text it was given. -/
  token : Bytes
deriving DecidableEq, Repr

/-- The error in words. -/
def ParseError.message (e : ParseError) : Bytes :=
  utf8 "'" ++ e.token ++ utf8 "' is " ++ e.rejection.message

/-! ## Names and types -/

/-- Read a name. -/
def Identifier.parse (s : Bytes) : Except ParseError Bytes :=
  if Identifier.isValid s then .ok s else .error ⟨.identifier, s⟩

/-- Read the spelling of an argument type. -/
def ArgType.parse (token : Bytes) : Except ParseError ArgType :=
  match ArgType.lookup token with
  | some t => .ok t
  | none => .error ⟨.type, token⟩

/-! ## Arguments -/

/-- Read `type: name`. There has to be one colon with something that is not blank on both sides;
the type is looked at before the name. -/
def Arg.parse (s : Bytes) : Except ParseError Arg :=
  match Bytes.pieces (byte ':') s with
  | [l, r] =>
    let token := l.trim
    let name := r.trim
    if token = [] ∨ name = [] then .error ⟨.argument, s⟩
    else do
      let type ← ArgType.parse token
      let name ← Identifier.parse name
      return ⟨type, Identifier.shorten name⟩
  | _ => .error ⟨.argument, s⟩

/-! ## The shape of a line -/

/-- White space that may stand between the keyword and the name. -/
def isGap (b : UInt8) : Bool :=
  b == byte ' ' || b == byte '\t' || b == byte '\n' || b == 0x0C || b == byte '\r'

/-- White space that may follow a declaration. -/
def isTail (b : UInt8) : Bool := b == byte ' ' || b == byte '\t' || b == byte '\r'

/-- The two parts of a line that has the shape `predicate name(body)`. -/
structure Shape where
  /-- What stands between the gap and the first parenthesis. -/
  name : Bytes
  /-- What stands between that parenthesis and the one that ends the line. -/
  body : Bytes
deriving DecidableEq, Repr

/-- The name in the text between keyword and parenthesis: the gap is as long as possible, but
leaves a byte for the name, even a blank one. -/
def Shape.name? : Bytes → Option Bytes
  | gap :: rest =>
    if isGap gap then
      match rest.dropWhile isGap with
      | [] => rest.getLast?.map fun b => [b]
      | name => some name
    else none
  | [] => none

/-- The shape of a line without its tail, if it has one. -/
def Shape.ofLine? (line : Bytes) : Option Shape := do
  let rest ← Bytes.after? (utf8 "predicate") line
  let (head, inner) ← Bytes.cut? (byte '(') rest
  let name ← Shape.name? head
  let body ← Bytes.before? (utf8 ")") inner
  if body = [] ∨ byte '\n' ∈ body then none else some ⟨name, body⟩

/-! ## Declarations -/

/-- Read a declaration: its shape, then its name, then its arguments from left to right. -/
def Predicate.parse (line : Bytes) : Except ParseError Predicate :=
  let line := line.stripEnd isTail
  match Shape.ofLine? line with
  | none => .error ⟨.predicate, line⟩
  | some shape => do
    let name ← Identifier.parse shape.name
    let args ← (Bytes.pieces (byte ',') shape.body).mapM Arg.parse
    return ⟨name, args⟩

end ZincBind

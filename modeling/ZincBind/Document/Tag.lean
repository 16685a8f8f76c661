import ZincBind.Document.Timestamp

/-!
# ZincBind.Document.Tag

What a scalar is. A plain scalar has the type its text shows; one with a type given has to show
that type, except that any text is a string, binary data is written in base 64, and types of the
user's own say nothing about the text.
-/

namespace ZincBind

namespace Document

/-- The types a text can show. -/
inductive ScalarType where
  | null
  | bool
  | int (width : IntWidth)
  | float
  | timestamp
  | str
deriving DecidableEq, Repr

namespace Tag

def null : Bytes := utf8 "!!null"

def bool : Bytes := utf8 "!!bool"

def int : Bytes := utf8 "!!int"

def float : Bytes := utf8 "!!float"

def timestamp : Bytes := utf8 "!!timestamp"

def str : Bytes := utf8 "!!str"

def binary : Bytes := utf8 "!!binary"

def merge : Bytes := utf8 "!!merge"

def seq : Bytes := utf8 "!!seq"

def map : Bytes := utf8 "!!map"

/-- What the standard tags begin with when written out. -/
def standard : Bytes := utf8 "tag:yaml.org,2002:"

/-- A tag with `!!` for the beginning of the standard tags. -/
def shorten (tag : Bytes) : Bytes :=
  match Bytes.after? standard tag with
  | some rest => utf8 "!!" ++ rest
  | none => tag

end Tag

namespace ScalarType

/-- The tag of a type. -/
def tag : ScalarType → Bytes
  | .null => Tag.null
  | .bool => Tag.bool
  | .int _ => Tag.int
  | .float => Tag.float
  | .timestamp => Tag.timestamp
  | .str => Tag.str

/-- Words that are nulls, truth values or special numbers. -/
def words : List (ScalarType × List String) :=
  [(.bool, ["true", "True", "TRUE", "false", "False", "FALSE"]),
   (.null, ["", "~", "null", "Null", "NULL"]),
   (.float, [".nan", ".NaN", ".NAN", ".inf", ".Inf", ".INF", "+.inf", "+.Inf", "+.INF", "-.inf",
     "-.Inf", "-.INF"])]

/-- The type of a word in the list. -/
def ofWord? (text : Bytes) : Option ScalarType :=
  (words.find? fun (_, ws) => ws.any (utf8 · == text)).map (·.1)

/-- The type of a text that begins with a digit or a sign. -/
def ofNumber (text : Bytes) : ScalarType :=
  if Timestamp.isValid text then .timestamp
  else
    let plain := withoutUnderscores text
    match integer? plain with
    | some w => .int w
    | none => if isFloat plain then .float else .str

/-- The type a text shows. -/
def ofText (text : Bytes) : ScalarType :=
  match ofWord? text with
  | some t => t
  | none =>
    match text with
    | [] => .null
    | b :: _ =>
      if Identifier.isDigit b || b == byte '+' || b == byte '-' then ofNumber text
      else if b == byte '.' then
        if underscoresSeparate false text && isFloat (withoutUnderscores text) then .float else .str
      else .str

/-- Whether a text of this type can be read under a tag. Whole numbers that fit into 64 bits with
a sign also count as floating-point numbers. -/
def fits (t : ScalarType) (tag : Bytes) : Bool :=
  t.tag == tag || (tag == Tag.float && t == .int .signed)

end ScalarType

/-! ## Binary data -/

namespace Base64

/-- The value of a digit. -/
def value? (b : UInt8) : Option Nat :=
  if byte 'A' ≤ b ∧ b ≤ byte 'Z' then some (b - byte 'A').toNat
  else if byte 'a' ≤ b ∧ b ≤ byte 'z' then some ((b - byte 'a').toNat + 26)
  else if byte '0' ≤ b ∧ b ≤ byte '9' then some ((b - byte '0').toNat + 52)
  else if b = byte '+' then some 62
  else if b = byte '/' then some 63
  else none

/-- The bytes of groups of four digits; the last group may end in one or two equals signs. -/
def groups? : Bytes → Option Bytes
  | [] => some []
  | a :: b :: c :: d :: r => do
    let x ← value? a
    let y ← value? b
    let first := UInt8.ofNat (x * 4 + y / 16)
    if c = byte '=' then if d = byte '=' ∧ r = [] then some [first] else none
    else
      let z ← value? c
      let second := UInt8.ofNat (y % 16 * 16 + z / 4)
      if d = byte '=' then if r = [] then some [first, second] else none
      else
        let w ← value? d
        let rest ← groups? r
        some (first :: second :: UInt8.ofNat (z % 4 * 64 + w) :: rest)
  | _ => none

/-- The bytes a text stands for; line breaks do not count. -/
def decode? (text : Bytes) : Option Bytes :=
  groups? (text.filter fun b => b != byte '\n' && b != byte '\r')

end Base64

/-! ## Reading scalars -/

/-- What a scalar stands for when a text is asked for: nothing for a null. -/
inductive ScalarText where
  | null
  | text (value : Bytes)
deriving DecidableEq, Repr

/-- Whether the text of a scalar has to show the type its tag says. -/
def Tag.isChecked (tag : Bytes) : Bool :=
  [Tag.null, Tag.bool, Tag.int, Tag.float, Tag.timestamp].contains tag

/-- The text of a scalar with a tag; none if they do not go together. -/
def scalarText? (tag text : Bytes) : Option ScalarText :=
  if tag == Tag.binary then (Base64.decode? text).map .text
  else if Tag.isChecked tag then
    let t := ScalarType.ofText text
    if t.fits tag then some (if t = .null then .null else .text text) else none
  else some (.text text)

end Document

end ZincBind

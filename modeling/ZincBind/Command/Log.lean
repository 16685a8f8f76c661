import ZincBind.Settings.LogLevel

/-!
# ZincBind.Command.Log

Log entries: what happened, how grave it is, and the values that go with it. An entry is written
as a line that holds a JSON object.
-/

namespace ZincBind

/-- A value in a log entry. -/
inductive LogValue where
  | text (value : Bytes)
  | number (value : Nat)
deriving DecidableEq, Repr

/-- A log entry. -/
structure LogEntry where
  /-- How grave it is. -/
  level : LogLevel
  /-- What happened. -/
  message : String
  /-- The values by name. -/
  fields : List (String × LogValue)
deriving DecidableEq, Repr

namespace LogEntry

/-- The name of the program in its log. -/
def logger : String := "fznGen"

/-- A source is about to be parsed. -/
def parsing (source : Bytes) : LogEntry :=
  ⟨.debug, "Parsing predicates", [("source", .text source)]⟩

/-- All sources have been parsed. -/
def parsed (sources predicates : Nat) : LogEntry :=
  ⟨.info, "Parsed predicates", [("sources", .number sources), ("predicates", .number predicates)]⟩

/-- A file is about to be written. -/
def writing (path : Bytes) (bytes : Nat) : LogEntry :=
  ⟨.debug, "Writing unit", [("path", .text path), ("bytes", .number bytes)]⟩

/-- All files have been written. -/
def generated (output : Bytes) (files : Nat) : LogEntry :=
  ⟨.info, "Generated constraints", [("output", .text output), ("files", .number files)]⟩

/-- A glyph inside a JSON string: quote marks, backslashes and controls are escaped, and a stray
byte becomes U+FFFD. -/
def jsonGlyph : Glyph → Bytes
  | .stray _ => utf8 "\\ufffd"
  | .char '"' => utf8 "\\\""
  | .char '\\' => utf8 "\\\\"
  | .char '\n' => utf8 "\\n"
  | .char '\r' => utf8 "\\r"
  | .char '\t' => utf8 "\\t"
  | .char c => if c < ' ' then utf8 "\\u" ++ Quoted.hex 4 c.toNat else String.utf8EncodeChar c

/-- A JSON string. -/
def jsonText (bs : Bytes) : Bytes :=
  byte '"' :: (Glyph.decode bs).flatMap jsonGlyph ++ [byte '"']

/-- A value in JSON. -/
def jsonValue : LogValue → Bytes
  | .text t => jsonText t
  | .number n => Bytes.decimal n

/-- The entry as one line of JSON. -/
def line (e : LogEntry) : Bytes :=
  let head := [("level", LogValue.text (utf8 e.level.name)), ("logger", .text (utf8 logger)),
    ("msg", .text (utf8 e.message))]
  let members := (head ++ e.fields).map fun (k, v) => jsonText (utf8 k) ++ utf8 ":" ++ jsonValue v
  utf8 "\x7b" ++ Bytes.joined (utf8 ",") members ++ utf8 "\x7d\n"

end LogEntry

end ZincBind

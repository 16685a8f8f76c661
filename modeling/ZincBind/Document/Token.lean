import ZincBind.Bytes

/-!
# ZincBind.Document.Token

The tokens a YAML stream is made of. Block structure, which the text shows by indentation alone,
has tokens of its own.
-/

namespace ZincBind

namespace Document

/-- What a token says. -/
inductive TokenKind where
  | streamEnd
  | versionDirective (major minor : Nat)
  | tagDirective (handle uri : Bytes)
  | documentStart
  | documentEnd
  | blockSequenceStart
  | blockMappingStart
  | blockEnd
  | flowSequenceStart
  | flowSequenceEnd
  | flowMappingStart
  | flowMappingEnd
  | blockEntry
  | flowEntry
  | key
  | value
  | alias (name : Bytes)
  | anchor (name : Bytes)
  | tag (handle suffix : Bytes)
  | scalar (text : Bytes) (plain : Bool)
  /-- The stream makes no sense from here on. -/
  | malformed
deriving DecidableEq, Repr

/-- A token and the line it starts on, counted from zero. -/
structure Token where
  /-- What it says. -/
  kind : TokenKind
  /-- Where it starts. -/
  line : Nat
deriving DecidableEq, Repr

end Document

end ZincBind

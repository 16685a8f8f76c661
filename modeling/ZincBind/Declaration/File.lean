import ZincBind.Declaration.Parser
import ZincBind.Files.Stream
import ZincBind.Text.Quoted

/-!
# ZincBind.Declaration.File

Declaration files: one declaration a line. Lines that start with a percent sign and blank lines
are skipped but counted, and the first line that is rejected fails the whole file.
-/

namespace ZincBind

/-- A rejected line of a file. -/
structure LineError where
  /-- Its number, counted from one. -/
  line : Nat
  /-- The line without the carriage returns at its end. -/
  text : Bytes
  /-- Why it is rejected. -/
  cause : ParseError
deriving DecidableEq, Repr

/-- The error in words. -/
def LineError.message (e : LineError) : Bytes :=
  utf8 "line " ++ Bytes.decimal e.line ++ utf8 " " ++ e.text.quoted ++ utf8 ": " ++
    e.cause.message

namespace DeclarationFile

/-- Whether a line is a comment or blank. -/
def isSkipped (line : Bytes) : Bool := line.head? == some (byte '%') || line.isBlank

/-- The declarations of numbered lines. -/
def parseLines : Nat → List Bytes → Except LineError (List Predicate)
  | _, [] => .ok []
  | n, line :: rest =>
    if isSkipped line then parseLines (n + 1) rest
    else
      match Predicate.parse line with
      | .error cause => .error ⟨n, line.stripEnd (· == byte '\r'), cause⟩
      | .ok p => (parseLines (n + 1) rest).map (p :: ·)

/-- The declarations of a file in order. -/
def parse (text : Bytes) : Except LineError (List Predicate) :=
  parseLines 1 (Bytes.pieces (byte '\n') text)

end DeclarationFile

/-- Why the declarations of a stream cannot be had. -/
inductive DeclarationError where
  /-- The stream fails. -/
  | unreadable (reason : Bytes)
  /-- A line is rejected. -/
  | rejected (error : LineError)
deriving DecidableEq, Repr

/-- The error in words. -/
def DeclarationError.message : DeclarationError → Bytes
  | .unreadable reason => utf8 "reading predicates: " ++ reason
  | .rejected error => error.message

/-- The declarations of a stream in order. -/
def DeclarationFile.read (s : Stream) : Except DeclarationError (List Predicate) :=
  match s.read with
  | .error reason => .error (.unreadable reason)
  | .ok text => (DeclarationFile.parse text).mapError .rejected

end ZincBind

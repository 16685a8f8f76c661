import ZincBind.Files.Glob
import ZincBind.Files.Stream
import ZincBind.Text.Quoted

/-!
# ZincBind.Command.Sources

The input of a run. A dash is standard input, a path that leads somewhere is that file, and
anything else is a pattern whose files are taken in the order of their paths. How files are found
is a parameter: the program searches by `Glob.files?`.
-/

namespace ZincBind

/-- An input text and the name it goes by in messages. -/
structure Source where
  /-- The name. -/
  name : Bytes
  /-- The text. -/
  text : Bytes
deriving DecidableEq, Repr

/-- Why the input cannot be had. -/
inductive SourceError where
  /-- Standard input fails. -/
  | stdin (reason : Bytes)
  /-- The pattern is malformed. -/
  | badPattern
  /-- No file matches. -/
  | noMatch (pattern : Bytes)
  /-- A file cannot be read. -/
  | file (name : Bytes) (error : PathError)
deriving DecidableEq, Repr

/-- The error in words. -/
def SourceError.message : SourceError → Bytes
  | .stdin reason => utf8 "reading stdin: " ++ reason
  | .badPattern => utf8 "glob error: syntax error in pattern"
  | .noMatch pattern => utf8 "no input files match " ++ pattern.quoted
  | .file name error => utf8 "input file " ++ name ++ utf8 ": " ++ error.message

/-- A way to find the files that a pattern matches, by their paths; a malformed pattern gives
nothing. -/
abbrev Search := FileSystem → Bytes → Option (List Bytes)

namespace Source

/-- Read the file of a name. -/
def ofFile (fs : FileSystem) (name : Bytes) : Except SourceError Source :=
  match fs.readFile name with
  | .ok text => .ok ⟨name, text⟩
  | .error e => .error (.file name e)

/-- Read files in the order given. -/
def ofFiles (fs : FileSystem) (names : List Bytes) : Except SourceError (List Source) :=
  names.mapM (ofFile fs)

/-- Read the files that match a pattern, in whatever order they were found. -/
def ofMatches (fs : FileSystem) (pattern : Bytes) (found : List Bytes) :
    Except SourceError (List Source) :=
  if found.isEmpty then .error (.noMatch pattern) else ofFiles fs (Bytes.sorted found)

/-- The sources an input argument stands for, patterns being searched for in a given way. -/
def readBy (search : Search) (fs : FileSystem) (stdin : Stream) (input : Bytes) :
    Except SourceError (List Source) :=
  if input = utf8 "-" then
    match stdin.read with
    | .ok text => .ok [⟨utf8 "<stdin>", text⟩]
    | .error reason => .error (.stdin reason)
  else
    match fs.stat input with
    | .ok _ => ofFiles fs [input]
    | .error _ =>
      match search fs input with
      | none => .error .badPattern
      | some found => ofMatches fs input found

/-- The sources an input argument stands for. -/
def read (fs : FileSystem) (stdin : Stream) (input : Bytes) : Except SourceError (List Source) :=
  readBy Glob.files? fs stdin input

end Source

end ZincBind

import ZincBind.Command.Log
import ZincBind.Command.Sources
import ZincBind.Declaration.File
import ZincBind.Delivery.Output
import ZincBind.Emit.ModuleFiles
import ZincBind.Settings.Basic

/-!
# ZincBind.Command.Run

One run of the program on a file tree: check the output directory, read and parse every source,
generate the files, and write or print them. The tree is touched only when all of this has
succeeded up to the writing, and never when the files are printed.
-/

namespace ZincBind

/-- What a run is asked to do. -/
structure Request where
  /-- The input argument. -/
  input : Bytes
  /-- The output directory; empty if none is given. -/
  output : Bytes
  /-- Whether the files are printed instead of written. -/
  debug : Bool
deriving DecidableEq, Repr

/-- Why a run fails. -/
inductive RunError where
  /-- Files are to be written and no directory is given. -/
  | outputRequired
  /-- The output directory cannot be used. -/
  | output (error : OutputError)
  /-- The input cannot be had. -/
  | source (error : SourceError)
  /-- A source is rejected. -/
  | rejected (name : Bytes) (error : LineError)
  /-- A file cannot be written. -/
  | write (error : WriteError)
  /-- The files cannot be printed. -/
  | print (reason : Bytes)
deriving DecidableEq, Repr

/-- The error in words. -/
def RunError.message : RunError → Bytes
  | .outputRequired => utf8 "output directory required unless --debug is set"
  | .output e => e.message
  | .source e => e.message
  | .rejected name e => name ++ utf8 ": " ++ e.message
  | .write e => e.message
  | .print reason => reason

/-- What a run leaves behind. -/
structure Outcome where
  /-- Whether it succeeds. -/
  result : Except RunError Unit
  /-- The file tree after it. -/
  files : FileSystem
  /-- What it prints. -/
  stdout : Bytes
  /-- What it logs, at all levels. -/
  log : List LogEntry
  /-- The file writes it asks for, in order. -/
  writes : List FileWrite

namespace Run

/-- The check of the output directory, which a run that prints does not need. -/
def checkOutput (fs : FileSystem) (r : Request) : Except RunError Unit :=
  if r.debug then .ok ()
  else if r.output.isEmpty then .error .outputRequired
  else (Output.check fs r.output).mapError .output

/-- The predicates of sources in order. The first rejected source fails them all. -/
def parseSources : List Source → Except RunError (List Predicate)
  | [] => .ok []
  | s :: rest =>
    match DeclarationFile.parse s.text with
    | .error e => .error (.rejected s.name e)
    | .ok ps => (parseSources rest).map (ps ++ ·)

/-- The sources that are parsed: all of them, or those up to the first rejected one. -/
def parsedSources : List Source → List Source
  | [] => []
  | s :: rest =>
    match DeclarationFile.parse s.text with
    | .error _ => [s]
    | .ok _ => s :: parsedSources rest

/-- The predicates of the input, after the output directory has been checked. -/
def predicates (search : Search) (fs : FileSystem) (stdin : Stream) (r : Request) :
    Except RunError (List Predicate) := do
  checkOutput fs r
  let sources ← (Source.readBy search fs stdin r.input).mapError .source
  parseSources sources

/-- The log up to the point where the predicates are known. -/
def readingLog (search : Search) (fs : FileSystem) (stdin : Stream) (r : Request) :
    List LogEntry :=
  match checkOutput fs r, Source.readBy search fs stdin r.input with
  | .ok (), .ok sources =>
    (parsedSources sources).map (LogEntry.parsing ·.name) ++
      match parseSources sources with
      | .ok ps => [LogEntry.parsed sources.length ps.length]
      | .error _ => []
  | _, _ => []

/-- Print or write generated files. -/
def deliver (fs : FileSystem) (r : Request) (files : List OutputFile) (log : List LogEntry) :
    Outcome :=
  if r.debug then
    let (stdout, result) := Print.run none r.output files
    ⟨result.mapError .print, fs, stdout, log, []⟩
  else
    let log := log ++ files.map fun f => LogEntry.writing f.path f.content.length
    let writing := Output.writing fs r.output files
    match writing.result with
    | .error e => ⟨.error (.write e), writing.files, [], log, writing.requests⟩
    | .ok () =>
      ⟨.ok (), writing.files, [], log ++ [LogEntry.generated r.output files.length],
        writing.requests⟩

end Run

/-- Run the program, patterns being searched for in a given way. -/
def runBy (search : Search) (fs : FileSystem) (stdin : Stream) (s : Settings) (r : Request) :
    Outcome :=
  let log := Run.readingLog search fs stdin r
  match Run.predicates search fs stdin r with
  | .error e => ⟨.error e, fs, [], log, []⟩
  | .ok ps => Run.deliver fs r (generate s.options ps) log

/-- Run the program. -/
def run (fs : FileSystem) (stdin : Stream) (s : Settings) (r : Request) : Outcome :=
  runBy Glob.files? fs stdin s r

end ZincBind

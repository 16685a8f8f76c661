import ZincBind.Command.Flags
import ZincBind.Command.Run
import ZincBind.Settings.Decode

/-!
# ZincBind.Command.Line

The whole program: a command line, standard input and a file tree give an outcome. The stages
come in a fixed order, and the first that fails decides: flags, help, the number of arguments,
the settings, the run itself.
-/

namespace ZincBind

/-! ## Settings from a file -/

/-- Why the settings of a file cannot be had. -/
inductive LoadError where
  /-- The file cannot be read. -/
  | unreadable (path : Bytes) (error : PathError)
  /-- Its text gives no settings. -/
  | settings (path : Bytes) (error : SettingsError)
deriving DecidableEq, Repr

/-- The error in words. -/
def LoadError.message : LoadError → Bytes
  | .unreadable path e => utf8 "reading config " ++ path ++ utf8 ": " ++ e.message
  | .settings path e => utf8 "config " ++ path ++ utf8 ": " ++ e.message

/-- The settings of a file, or the standard ones if no file is named. -/
def Settings.load (fs : FileSystem) (path : Bytes) : Except LoadError Settings :=
  if path.isEmpty then .ok Settings.standard
  else
    match fs.readFile path with
    | .error e => .error (.unreadable path e)
    | .ok text => (Settings.parse text).mapError (.settings path)

/-! ## The program -/

/-- Why the program fails. -/
inductive CommandError where
  /-- A flag is at fault. -/
  | flag (error : FlagError)
  /-- There are too few or too many arguments. -/
  | argCount (received : Nat)
  /-- The settings cannot be had. -/
  | load (error : LoadError)
  /-- The log level has no such name. -/
  | logLevel (name : Bytes)
  /-- The run fails. -/
  | run (error : RunError)
deriving DecidableEq, Repr

/-- The error in words. -/
def CommandError.message : CommandError → Bytes
  | .flag e => e.message
  | .argCount n => utf8 "accepts between 1 and 2 arg(s), received " ++ Bytes.decimal n
  | .load e => e.message
  | .logLevel name => LogLevel.unrecognized name
  | .run e => e.message

/-- What the program leaves behind. -/
structure CommandOutcome where
  /-- Whether it succeeds. -/
  result : Except CommandError Unit
  /-- The file tree after it. -/
  files : FileSystem
  /-- What it prints. -/
  stdout : Bytes
  /-- The log entries that appear. -/
  log : List LogEntry

namespace Command

/-- The help text. -/
def help : Bytes :=
  Bytes.unlines <| List.map utf8
    ["fznGen reads FlatZinc predicate declarations, one per line, and generates",
     "a Rust struct per predicate plus the Constraint enum and module files.",
     "",
     "Lines starting with % are comments. The output directory must exist and be empty.",
     "",
     "Usage:",
     "  fznGen [flags] <input> [output]",
     "",
     "Flags:",
     "  -c, --config string   path to a YAML config file",
     "  -d, --debug           print files on stdout instead of writing them",
     "  -h, --help            help for fznGen",
     "  -v, --verbose         enable debug logging"]

/-- What the arguments ask for, if there are one or two of them. -/
def request? (i : Invocation) : Option Request :=
  match i.args with
  | [input] => some ⟨input, [], i.debug⟩
  | [input, output] => some ⟨input, output, i.debug⟩
  | _ => none

/-- Everything that has to be known before the run: the settings, the log threshold and the
request. -/
def prepare (fs : FileSystem) (i : Invocation) :
    Except CommandError (Settings × LogLevel × Request) := do
  let some r := request? i | throw (.argCount i.args.length)
  let s ← (Settings.load fs i.config).mapError .load
  let some threshold := s.threshold? i.verbose | throw (.logLevel s.logLevel)
  return (s, threshold, r)

/-- Run the program on a command line. -/
def execute (fs : FileSystem) (stdin : Stream) (args : List Bytes) : CommandOutcome :=
  match Invocation.parse args with
  | .error e => ⟨.error (.flag e), fs, [], []⟩
  | .ok i =>
    if i.help then ⟨.ok (), fs, help, []⟩
    else
      match prepare fs i with
      | .error e => ⟨.error e, fs, [], []⟩
      | .ok (s, threshold, r) =>
        let o := run fs stdin s r
        ⟨o.result.mapError .run, o.files, o.stdout, o.log.filter (threshold.enables ·.level)⟩

end Command

namespace CommandOutcome

/-- The exit status. -/
def exitCode (o : CommandOutcome) : Nat :=
  match o.result with
  | .ok () => 0
  | .error _ => 1

/-- What is said of a failure on standard error. -/
def complaint (o : CommandOutcome) : Bytes :=
  match o.result with
  | .ok () => []
  | .error e => utf8 "Error: " ++ e.message ++ utf8 "\n"

end CommandOutcome

end ZincBind

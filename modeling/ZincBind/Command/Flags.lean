import ZincBind.Text.Quoted

/-!
# ZincBind.Command.Flags

The command line. Flags and arguments mix; two dashes end the flags, and a single dash is an
argument. Short flags may share a dash, and one that takes a value takes the rest of its cluster
or the next argument. Flags are read from left to right, and the first fault is the one reported.
-/

namespace ZincBind

/-- The flags. -/
inductive Flag where
  | debug
  | config
  | verbose
  | help
deriving DecidableEq, Repr

namespace Flag

/-- All flags. -/
def all : List Flag := [.debug, .config, .verbose, .help]

/-- The long name of a flag. -/
def long : Flag → String
  | .debug => "debug"
  | .config => "config"
  | .verbose => "verbose"
  | .help => "help"

/-- The letter of a flag. -/
def letter : Flag → Char
  | .debug => 'd'
  | .config => 'c'
  | .verbose => 'v'
  | .help => 'h'

/-- Whether a flag stands for true or false, and so needs no value. -/
def isSwitch : Flag → Bool
  | .config => false
  | _ => true

/-- The flag with a long name. -/
def ofLong? (name : Bytes) : Option Flag := all.find? fun f => utf8 f.long == name

/-- The flag with a letter. -/
def ofLetter? (b : UInt8) : Option Flag := all.find? fun f => byte f.letter == b

end Flag

/-- What is wrong with a command line. -/
inductive FlagError where
  /-- Two dashes and no name. -/
  | badSyntax (arg : Bytes)
  /-- A long name that is no flag. -/
  | unknownLong (name : Bytes)
  /-- A letter that is no flag, at the start of what is left of its cluster. -/
  | unknownLetter (letter : UInt8) (cluster : Bytes)
  /-- A flag by its long name without its value. -/
  | missingValueLong (flag : Flag)
  /-- A flag by its letter without its value. -/
  | missingValueLetter (flag : Flag) (cluster : Bytes)
  /-- A value that is neither true nor false. -/
  | notBool (flag : Flag) (value : Bytes)
deriving DecidableEq, Repr

/-- The character that stands for a letter in messages. A byte above ASCII is shown by the lead
byte that its own encoding as a character has. -/
def shownLetter (b : UInt8) : Char :=
  if b < 0x80 then Char.ofNat b.toNat
  else if b < 0xC0 then Char.ofNat 0xC2
  else Char.ofNat 0xC3

/-- The error in words. -/
def FlagError.message : FlagError → Bytes
  | .badSyntax arg => utf8 "bad flag syntax: " ++ arg
  | .unknownLong name => utf8 "unknown flag: --" ++ name
  | .unknownLetter letter cluster =>
    utf8 "unknown shorthand flag: " ++ Quoted.char (shownLetter letter) ++ utf8 " in -" ++ cluster
  | .missingValueLong flag => utf8 "flag needs an argument: --" ++ utf8 flag.long
  | .missingValueLetter flag cluster =>
    utf8 "flag needs an argument: " ++ Quoted.char flag.letter ++ utf8 " in -" ++ cluster
  | .notBool flag value =>
    utf8 "invalid argument " ++ value.quoted ++ utf8 " for \"-" ++ [byte flag.letter] ++
      utf8 ", --" ++ utf8 flag.long ++ utf8 "\" flag: strconv.ParseBool: parsing " ++
      value.quoted ++ utf8 ": invalid syntax"

/-- A command line that has been read. -/
structure Invocation where
  /-- Whether files are printed. -/
  debug : Bool
  /-- Whether everything is logged. -/
  verbose : Bool
  /-- Whether help is asked for. -/
  help : Bool
  /-- The path of the settings; empty for none. -/
  config : Bytes
  /-- The arguments that are no flags. -/
  args : List Bytes
deriving DecidableEq, Repr

namespace Invocation

/-- The command line with nothing on it. -/
def empty : Invocation := ⟨false, false, false, [], []⟩

/-- The truth value a text spells. -/
def bool? (value : Bytes) : Option Bool :=
  if ["1", "t", "T", "TRUE", "true", "True"].any (utf8 · == value) then some true
  else if ["0", "f", "F", "FALSE", "false", "False"].any (utf8 · == value) then some false
  else none

/-- Set a flag to a value. -/
def set (i : Invocation) (flag : Flag) (value : Bytes) : Except FlagError Invocation :=
  match flag, bool? value with
  | .config, _ => .ok { i with config := value }
  | .debug, some b => .ok { i with debug := b }
  | .verbose, some b => .ok { i with verbose := b }
  | .help, some b => .ok { i with help := b }
  | flag, none => .error (.notBool flag value)

/-- Add an argument. -/
def addArg (i : Invocation) (arg : Bytes) : Invocation := { i with args := i.args ++ [arg] }

/-- Read a flag by its long name, with the arguments after it: what is left of them. -/
def readLong (i : Invocation) (arg name : Bytes) (rest : List Bytes) :
    Except FlagError (Invocation × List Bytes) :=
  if name.isEmpty || name.head? == some (byte '-') || name.head? == some (byte '=') then
    .error (.badSyntax arg)
  else
    let (key, value) := match Bytes.cut? (byte '=') name with
      | some (key, value) => (key, some value)
      | none => (name, none)
    match Flag.ofLong? key with
    | none => .error (.unknownLong key)
    | some flag =>
      match value, rest with
      | some v, _ => (i.set flag v).map (·, rest)
      | none, next =>
        if flag.isSwitch then (i.set flag (utf8 "true")).map (·, next)
        else
          match next with
          | v :: next => (i.set flag v).map (·, next)
          | [] => .error (.missingValueLong flag)

/-- The value that an equals sign gives to the flag before it in a cluster; an equals sign at the
end gives none. -/
def assigned? : Bytes → Option Bytes
  | eq :: v :: vs => if eq = byte '=' then some (v :: vs) else none
  | _ => none

/-- Read a cluster of short flags, with the arguments after it: what is left of them. A cluster
that goes on with `test.` is passed over. -/
def readCluster (i : Invocation) :
    Bytes → List Bytes → Except FlagError (Invocation × List Bytes)
  | [], rest => .ok (i, rest)
  | b :: cluster, rest =>
    if (utf8 "test.").isPrefixOf (b :: cluster) then .ok (i, rest)
    else
      match Flag.ofLetter? b, assigned? cluster with
      | none, _ => .error (.unknownLetter b (b :: cluster))
      | some flag, some v => (i.set flag v).map (·, rest)
      | some flag, none =>
        if flag.isSwitch then
          match i.set flag (utf8 "true") with
          | .ok i => readCluster i cluster rest
          | .error e => .error e
        else if !cluster.isEmpty then (i.set flag cluster).map (·, rest)
        else
          match rest with
          | v :: rest => (i.set flag v).map (·, rest)
          | [] => .error (.missingValueLetter flag (b :: cluster))

/-- Read arguments, at most `fuel` of them. -/
def readArgs : Nat → Invocation → List Bytes → Except FlagError Invocation
  | 0, i, _ => .ok i
  | _, i, [] => .ok i
  | fuel + 1, i, arg :: rest =>
    match arg with
    | dash :: c :: cs =>
      if dash ≠ byte '-' then readArgs fuel (i.addArg arg) rest
      else if c = byte '-' then
        if cs.isEmpty then .ok (rest.foldl addArg i)
        else
          match readLong i arg cs rest with
          | .ok (i, rest) => readArgs fuel i rest
          | .error e => .error e
      else
        match readCluster i (c :: cs) rest with
        | .ok (i, rest) => readArgs fuel i rest
        | .error e => .error e
    | _ => readArgs fuel (i.addArg arg) rest

/-- Read a command line. -/
def parse (args : List Bytes) : Except FlagError Invocation := readArgs args.length empty args

end Invocation

end ZincBind

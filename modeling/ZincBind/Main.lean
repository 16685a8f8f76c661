import ZincBind.Command.Line

/-!
# ZincBind.Main

The program on a machine. What the command line names is copied into a file tree, the program
runs on that tree, and what it changed there is written to the machine. One thing is decided here: a
pattern is searched for no more than `Machine.maxDepth` directories deep, so that files further down
are not found.
-/

namespace ZincBind

namespace Machine

/-- How many directories deep a pattern is searched for. Links may lead around in circles on a
machine, so there has to be an end. -/
def maxDepth : Nat := 64

/-- The machine's path to a place. -/
def pathTo (loc : Location) : String :=
  "/" ++ String.ofList ((Glyph.decode (Bytes.joined (utf8 "/") loc)).map Glyph.shown)

/-- The names directly below a place; none if it is no directory. -/
def names (loc : Location) : IO (List Bytes) := do
  try
    let entries ← (← IO.FS.realPath (pathTo loc)).readDir
    return entries.toList.map fun e => utf8 e.fileName
  catch _ => return []

/-- What kind of entry a place holds. A file comes without its content. -/
def kind? (loc : Location) : IO (Option Entry) := do
  try
    let place ← IO.FS.realPath (pathTo loc)
    if ← place.isDir then return some .directory
    else if ← place.pathExists then return some (.file [])
    else return none
  catch _ => return none

/-- Note a place and, down to a depth, the places below it. -/
def survey (t : FileTree) (loc : Location) : Nat → IO FileTree
  | 0 => do
    match ← kind? loc with
    | some e => return if loc.isEmpty then t else t.set loc e
    | none => return t
  | depth + 1 => do
    let mut t ← survey t loc 0
    for name in ← names loc do
      t ← survey t (loc ++ [name]) depth
    return t

/-- The place of a path, by its elements alone. -/
def place (cwd path : Bytes) : Location :=
  (Path.ofBytes (if Path.isAbsolute path then path else Path.join cwd path)).parts

/-- Note everything a path may lead through, and what a pattern may match. -/
def surveyPath (cwd : Bytes) (t : FileTree) (path : Bytes) : IO FileTree := do
  let parts := Bytes.pieces (byte '/') path
  let isPlain (part : Bytes) : Bool := part.all fun b => !(utf8 "*?[\x7b\\").contains b
  let fixed := (parts.takeWhile isPlain).length
  let mut t := t
  for n in List.range parts.length do
    t ← survey t (place cwd (Bytes.joined (utf8 "/") (parts.take (n + 1)))) 0
  survey t (place cwd (Bytes.joined (utf8 "/") (parts.take fixed)))
    (if fixed = parts.length then 1 else maxDepth)

/-- Fill in the content of the file a path leads to. -/
def fill (fs : FileSystem) (path : Bytes) : IO FileSystem := do
  match fs.resolve path with
  | .error _ => return fs
  | .ok loc =>
    match fs.tree.get? loc with
    | some (.file _) =>
      let content ← IO.FS.readBinFile (pathTo loc)
      return fs.set loc (.file content.toList)
    | _ => return fs

/-- The part of the machine's files that paths name. -/
def snapshot (paths : List Bytes) : IO FileSystem := do
  let cwd := utf8 (toString (← IO.currentDir))
  let loc := (Path.ofBytes cwd).parts
  let mut t := FileTree.empty
  for n in List.range loc.length do
    t ← survey t (loc.take (n + 1)) 0
  for path in paths do
    t ← surveyPath cwd t path
    t ← surveyPath cwd t (Path.clean path)
  let mut fs : FileSystem := ⟨t, loc⟩
  for path in paths do
    for found in path :: (Glob.files? fs path).getD [] do
      fs ← fill fs found
  return fs

/-- Write what differs from before to the machine. -/
def store (before after : FileTree) : IO Unit := do
  for (loc, e) in after.entries do
    if before.get? loc ≠ some e then
      match e with
      | .directory => IO.FS.createDir (pathTo loc)
      | .file content => IO.FS.writeBinFile (pathTo loc) ⟨content.toArray⟩

/-- Everything a stream gives. -/
def drain (source : IO.FS.Stream) : IO Stream := do
  let mut bytes := ByteArray.empty
  try
    repeat
      let chunk ← source.read 65536
      if chunk.isEmpty then break
      bytes := bytes ++ chunk
    return ⟨bytes.toList, none⟩
  catch e => return ⟨bytes.toList, some (utf8 (toString e))⟩

/-- The paths a command line names. -/
def pathsOf (args : List Bytes) : List Bytes :=
  match Invocation.parse args with
  | .ok i => (i.config :: i.args).filter (!·.isEmpty)
  | .error _ => []

/-- Write bytes to a stream. -/
def emit (stream : IO.FS.Stream) (bs : Bytes) : IO Unit := stream.write ⟨bs.toArray⟩

end Machine

end ZincBind

open ZincBind in
/-- Run the program on the machine and give its exit status. -/
def main (arguments : List String) : IO UInt32 := do
  let args := arguments.map utf8
  let paths := Machine.pathsOf args
  let fs ← Machine.snapshot paths
  let stdin ← if paths.contains (utf8 "-") then Machine.drain (← IO.getStdin) else pure ⟨[], none⟩
  let outcome := Command.execute fs stdin args
  Machine.store fs.tree outcome.files.tree
  Machine.emit (← IO.getStdout) outcome.stdout
  let stderr ← IO.getStderr
  for entry in outcome.log do
    Machine.emit stderr entry.line
  Machine.emit stderr outcome.complaint
  return UInt32.ofNat outcome.exitCode

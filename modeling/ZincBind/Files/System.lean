import ZincBind.Files.Path
import ZincBind.Files.Tree

/-!
# ZincBind.Files.System

Reading and writing in a file tree by path. A path is walked element by element: every place left
has to be a directory, so a slash at the end asks for one, and `..` goes to the parent. Nothing
but a missing entry, an entry of the wrong kind, a name that is too long and a NUL byte can make
an operation fail.
-/

namespace ZincBind

/-- Why an operation on a path fails. -/
inductive PathFault where
  /-- There is nothing there. -/
  | missing
  /-- Something that is no directory stands where one is needed. -/
  | notDirectory
  /-- A directory stands where a file is needed. -/
  | isDirectory
  /-- An element is longer than a name may be. -/
  | nameTooLong
  /-- The path holds a NUL byte. -/
  | invalid
deriving DecidableEq, Repr

/-- The fault in words. -/
def PathFault.message : PathFault → String
  | .missing => "no such file or directory"
  | .notDirectory => "not a directory"
  | .isDirectory => "is a directory"
  | .nameTooLong => "file name too long"
  | .invalid => "invalid argument"

/-- The operations that can fail. -/
inductive FileOp where
  | open
  | read
  | stat
  | mkdir
deriving DecidableEq, Repr

/-- The name of an operation. -/
def FileOp.name : FileOp → String
  | .open => "open"
  | .read => "read"
  | .stat => "stat"
  | .mkdir => "mkdir"

/-- A failed operation. -/
structure PathError where
  /-- The operation. -/
  op : FileOp
  /-- The path it was given. -/
  path : Bytes
  /-- Why it fails. -/
  fault : PathFault
deriving DecidableEq, Repr

/-- The error in words. -/
def PathError.message (e : PathError) : Bytes :=
  utf8 e.op.name ++ utf8 " " ++ e.path ++ utf8 ": " ++ utf8 e.fault.message

/-- A file tree seen from a working directory. -/
structure FileSystem where
  /-- The tree. -/
  tree : FileTree
  /-- Where relative paths start. -/
  cwd : Location
deriving DecidableEq, Repr

namespace FileSystem

/-- The longest name an entry may have. -/
def maxName : Nat := 255

/-- Go one element on from a place, which has to be a directory. -/
def step (t : FileTree) (loc : Location) (part : Bytes) : Except PathFault Location :=
  match t.get? loc with
  | none => .error .missing
  | some (.file _) => .error .notDirectory
  | some .directory =>
    if Path.isIdle part then .ok loc
    else if part = Path.up then .ok loc.dropLast
    else if maxName < part.length then .error .nameTooLong
    else .ok (loc ++ [part])

/-- Walk along elements from a place. -/
def walk (t : FileTree) : Location → List Bytes → Except PathFault Location
  | loc, [] => .ok loc
  | loc, part :: parts =>
    match step t loc part with
    | .ok next => walk t next parts
    | .error f => .error f

/-- The place a path leads to. There need not be anything there, but what it lies in is a
directory. -/
def resolve (fs : FileSystem) (path : Bytes) : Except PathFault Location :=
  if 0 ∈ path then .error .invalid
  else if path = [] then .error .missing
  else
    walk fs.tree (if Path.isAbsolute path then [] else fs.cwd) (Bytes.pieces (byte '/') path)

/-- What a path leads to. -/
def stat (fs : FileSystem) (path : Bytes) : Except PathError Entry :=
  match fs.resolve path with
  | .error f => .error ⟨.stat, path, f⟩
  | .ok loc =>
    match fs.tree.get? loc with
    | some e => .ok e
    | none => .error ⟨.stat, path, .missing⟩

/-- The content of a file. A directory can be opened but not read. -/
def readFile (fs : FileSystem) (path : Bytes) : Except PathError Bytes :=
  match fs.resolve path with
  | .error f => .error ⟨.open, path, f⟩
  | .ok loc =>
    match fs.tree.get? loc with
    | none => .error ⟨.open, path, .missing⟩
    | some .directory => .error ⟨.read, path, .isDirectory⟩
    | some (.file content) => .ok content

/-- Put an entry at a place. -/
def set (fs : FileSystem) (loc : Location) (e : Entry) : FileSystem :=
  { fs with tree := fs.tree.set loc e }

/-- Write a file, over what it held before. -/
def writeFile (fs : FileSystem) (path content : Bytes) : Except PathError FileSystem :=
  match fs.resolve path with
  | .error f => .error ⟨.open, path, f⟩
  | .ok loc =>
    match fs.tree.get? loc with
    | some .directory => .error ⟨.open, path, .isDirectory⟩
    | _ => .ok (fs.set loc (.file content))

/-- Make sure that a path leads to a directory, given that its parent does. -/
def makeDirectory (fs : FileSystem) (path : Bytes) : Except PathError FileSystem :=
  match fs.resolve path with
  | .error f => .error ⟨.mkdir, path, f⟩
  | .ok loc =>
    match fs.tree.get? loc with
    | some .directory => .ok fs
    | some (.file _) => .error ⟨.mkdir, path, .notDirectory⟩
    | none => .ok (fs.set loc .directory)

/-- Make the directories of a list in turn. What was made before a failure stays. -/
def makeAll (fs : FileSystem) : List Bytes → FileSystem × Except PathError Unit
  | [] => (fs, .ok ())
  | path :: paths =>
    match fs.makeDirectory path with
    | .ok fs => makeAll fs paths
    | .error e => (fs, .error e)

/-- A clean path and the paths above it, outermost first. -/
def ancestry (p : Path) : List Bytes :=
  (List.range p.parts.length).map fun n => Path.toBytes ⟨p.absolute, p.parts.take (n + 1)⟩

/-- Make a directory and the ones above it that are missing. -/
def makeDirectories (fs : FileSystem) (path : Bytes) : FileSystem × Except PathError Unit :=
  fs.makeAll (ancestry (Path.ofBytes path))

/-- Whether nothing lies below the directory a path leads to. -/
def isEmptyDirectory (fs : FileSystem) (path : Bytes) : Bool :=
  match fs.resolve path with
  | .ok loc => fs.tree.isEmptyAt loc
  | .error _ => false

end FileSystem

end ZincBind

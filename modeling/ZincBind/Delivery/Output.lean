import ZincBind.Delivery.Print
import ZincBind.Files.System

/-!
# ZincBind.Delivery.Output

Writing generated files below an output directory. The directory has to be there and be empty
before any work starts. Writing stops at the first file that cannot be written, and what was
written before it stays.
-/

namespace ZincBind

/-! ## Checking the directory -/

/-- What is wrong with an output directory. -/
inductive OutputFault where
  /-- It is not there. -/
  | missing
  /-- It is something else. -/
  | notDirectory
  /-- It holds something. -/
  | notEmpty
  /-- It cannot be looked at. -/
  | unreachable (error : PathError)
deriving DecidableEq, Repr

/-- An output directory that cannot be used. -/
structure OutputError where
  /-- The directory. -/
  dir : Bytes
  /-- What is wrong with it. -/
  fault : OutputFault
deriving DecidableEq, Repr

/-- The error in words. -/
def OutputError.message (e : OutputError) : Bytes :=
  match e.fault with
  | .missing => e.dir ++ utf8 " is not a valid path"
  | .notDirectory => e.dir ++ utf8 " is not a directory"
  | .notEmpty => e.dir ++ utf8 " is not empty"
  | .unreachable error => utf8 "checking output directory " ++ e.dir ++ utf8 ": " ++ error.message

namespace Output

/-- Check that a path leads to an empty directory. -/
def check (fs : FileSystem) (dir : Bytes) : Except OutputError Unit :=
  match fs.stat dir with
  | .error e =>
    if e.fault = .missing then .error ⟨dir, .missing⟩ else .error ⟨dir, .unreachable e⟩
  | .ok (.file _) => .error ⟨dir, .notDirectory⟩
  | .ok .directory => if fs.isEmptyDirectory dir then .ok () else .error ⟨dir, .notEmpty⟩

end Output

/-! ## Writing -/

/-- Why files cannot be written. -/
inductive WriteError where
  /-- The directory for the predicates' files cannot be made. -/
  | builtins (error : PathError)
  /-- A file cannot be written. -/
  | file (path : Bytes) (error : PathError)
deriving DecidableEq, Repr

/-- The failed operation. -/
def WriteError.cause : WriteError → PathError
  | .builtins e => e
  | .file _ e => e

/-- The error in words. -/
def WriteError.message : WriteError → Bytes
  | .builtins e => utf8 "creating builtins directory: " ++ e.message
  | .file path e => utf8 "writing " ++ path ++ utf8 ": " ++ e.message

/-- A file write that is asked for: where, and what. -/
abbrev FileWrite := Bytes × Bytes

/-- How writing goes. -/
structure Writing where
  /-- The file writes that are asked for, in order. The one that fails is the last. -/
  requests : List FileWrite
  /-- The file tree after them. -/
  files : FileSystem
  /-- Whether it succeeds. -/
  result : Except WriteError Unit

namespace Output

/-- The file write that puts a file below a directory. -/
def request (dir : Bytes) (f : OutputFile) : FileWrite := (Print.destination dir f, f.content)

/-- How writing files to their destinations goes, in order; a later file goes over an earlier
one. -/
def writingFiles (dir : Bytes) : FileSystem → List OutputFile → Writing
  | fs, [] => ⟨[], fs, .ok ()⟩
  | fs, f :: rest =>
    let w := request dir f
    match fs.writeFile w.1 w.2 with
    | .ok fs =>
      let later := writingFiles dir fs rest
      { later with requests := w :: later.requests }
    | .error e => ⟨[w], fs, .error (.file w.1 e)⟩

/-- How it goes to make the directory for the predicates' files, then to write every file. -/
def writing (fs : FileSystem) (dir : Bytes) (files : List OutputFile) : Writing :=
  match fs.makeDirectories (Path.join dir OutputFile.builtinsDir) with
  | (fs, .error e) => ⟨[], fs, .error (.builtins e)⟩
  | (fs, .ok ()) => writingFiles dir fs files

/-- Write files to their destinations in order. -/
def writeFiles (dir : Bytes) (fs : FileSystem) (files : List OutputFile) :
    FileSystem × Except WriteError Unit :=
  ((writingFiles dir fs files).files, (writingFiles dir fs files).result)

/-- Make the directory for the predicates' files, then write every file. -/
def write (fs : FileSystem) (dir : Bytes) (files : List OutputFile) :
    FileSystem × Except WriteError Unit :=
  ((writing fs dir files).files, (writing fs dir files).result)

@[simp]
theorem writeFiles_nil (dir : Bytes) (fs : FileSystem) : writeFiles dir fs [] = (fs, .ok ()) := rfl

theorem writeFiles_cons (dir : Bytes) (fs : FileSystem) (f : OutputFile) (rest : List OutputFile) :
    writeFiles dir fs (f :: rest) =
      match fs.writeFile (Print.destination dir f) f.content with
      | .ok next => writeFiles dir next rest
      | .error e => (fs, .error (.file (Print.destination dir f) e)) := by
  simp only [writeFiles, writingFiles, request]
  cases fs.writeFile (Print.destination dir f) f.content with
  | error e => rfl
  | ok next => rfl

theorem write_of_made {fs mid : FileSystem} {dir : Bytes}
    (h : fs.makeDirectories (Path.join dir OutputFile.builtinsDir) = (mid, .ok ()))
    (files : List OutputFile) : write fs dir files = writeFiles dir mid files := by
  rw [write, writing, h]
  rfl

theorem write_of_not_made {fs mid : FileSystem} {dir : Bytes} {e : PathError}
    (h : fs.makeDirectories (Path.join dir OutputFile.builtinsDir) = (mid, .error e))
    (files : List OutputFile) : write fs dir files = (mid, .error (.builtins e)) := by
  rw [write, writing, h]

end Output

end ZincBind

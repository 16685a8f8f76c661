import ZincBind.Delivery.Banner
import ZincBind.Emit.OutputFile
import ZincBind.Files.Path

/-!
# ZincBind.Delivery.Print

Showing generated files instead of writing them: one block per file, its banner over its text.
A writer may close after some number of blocks.
-/

namespace ZincBind

namespace Print

/-- Where a file goes below a directory. -/
def destination (dir : Bytes) (f : OutputFile) : Bytes := Path.join dir f.path

/-- The block that shows a file. -/
def block (dir : Bytes) (f : OutputFile) : Bytes :=
  utf8 "// " ++ Banner.render (destination dir f) ++ utf8 "\n" ++ f.content ++ utf8 "\n"

/-- A writer that takes a limited number of blocks, or any number. -/
abbrev Capacity := Option Nat

/-- What a closed writer says. -/
def closed : Bytes := utf8 "writer closed"

/-- What a writer takes after one more block, if it takes that. -/
def Capacity.next? : Capacity → Option Capacity
  | none => some none
  | some 0 => none
  | some (n + 1) => some (some n)

/-- The blocks of the files up to the first that the writer does not take, and whether it took them
all. -/
def run (capacity : Capacity) (dir : Bytes) : List OutputFile → Bytes × Except Bytes Unit
  | [] => ([], .ok ())
  | f :: fs =>
    match capacity.next? with
    | none => ([], .error closed)
    | some left =>
      let (shown, result) := run left dir fs
      (block dir f ++ shown, result)

/-- A writer without a limit takes every block. -/
theorem run_none (dir : Bytes) (fs : List OutputFile) :
    run none dir fs = (fs.flatMap (block dir), .ok ()) := by
  induction fs with
  | nil => rfl
  | cons f fs ih => simp [run, Capacity.next?, ih]

/-- A writer with a limit takes the first blocks up to its limit, and fails at the next one. -/
theorem run_some (n : Nat) (dir : Bytes) (fs : List OutputFile) :
    run (some n) dir fs =
      ((fs.take n).flatMap (block dir), if fs.length ≤ n then .ok () else .error closed) := by
  induction fs generalizing n with
  | nil => simp [run]
  | cons f fs ih =>
      cases n with
      | zero => simp [run, Capacity.next?]
      | succ n => simp [run, Capacity.next?, ih]

end Print

end ZincBind

import ZincBind.Bytes

/-!
# ZincBind.Emit.OutputFile

Generated files before they are delivered.
-/

namespace ZincBind

/-- A generated file. -/
structure OutputFile where
  /-- Its place below the output directory, with slashes. -/
  path : Bytes
  /-- Its text. -/
  content : Bytes
deriving DecidableEq, Repr

namespace OutputFile

/-- The directory below the output directory that holds a file per predicate. -/
def builtinsDir : Bytes := utf8 "builtins"

/-- The first line of every generated file. -/
def header : Bytes := utf8 "// Code generated by fznGen. DO NOT EDIT."

/-- A file given by its lines, under the header and a blank line. -/
def ofLines (path : Bytes) (lines : List Bytes) : OutputFile where
  path := path
  content := Bytes.unlines (header :: [] :: lines)

end OutputFile

end ZincBind

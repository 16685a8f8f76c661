import ZincBind.Emit.Imports
import ZincBind.Emit.OutputFile
import ZincBind.Files.Path

/-!
# ZincBind.Emit.PredicateFile

The Rust file of one predicate: a struct with a field per argument, its constructor, accessors
and reader, its FlatZinc text, and the conversions from and to the constraint enum. The file is
built line by line, each block in argument order.
-/

namespace ZincBind

namespace PredicateFile

/-! ## Blocks of lines -/

/-- The line that imports a path. -/
def importLine (path : Bytes) : Bytes := utf8 "use " ++ path ++ utf8 ";"

/-- Import lines, with a blank line between groups. -/
def importLines : List (List Bytes) → List Bytes
  | [] => []
  | [g] => g.map importLine
  | g :: h :: gs => g.map importLine ++ [[]] ++ importLines (h :: gs)

/-- The line above the declaration in the struct's documentation. -/
def declarationMark : Bytes := utf8 "/// ```flatzinc"

/-- The documentation of the struct: the declaration itself. -/
def docLines (p : Predicate) : List Bytes :=
  [declarationMark, utf8 "/// " ++ p.render, utf8 "/// ```"]

/-- The line of a struct field. -/
def fieldLine (a : Arg) : Bytes := utf8 "    " ++ a.name ++ utf8 ": " ++ a.type.target ++ utf8 ","

/-- The struct. -/
def structLines (derive : Bytes) (p : Predicate) : List Bytes :=
  [derive, utf8 "pub struct " ++ p.typeName ++ utf8 " \x7b"] ++ p.args.map fieldLine ++
    [utf8 "\x7d"]

/-- A constructor parameter. -/
def param (a : Arg) : Bytes := a.name ++ utf8 ": " ++ a.type.target

/-- The constructor's parameters. -/
def params (p : Predicate) : Bytes := Bytes.joined (utf8 ", ") (p.args.map param)

/-- The argument names as a list. -/
def fields (p : Predicate) : Bytes := Bytes.joined (utf8 ", ") (p.args.map Arg.name)

/-- The constants and the constructor. -/
def constructorLines (p : Predicate) : List Bytes :=
  [utf8 "    pub const NAME: &str = \"" ++ p.name ++ utf8 "\";",
   utf8 "    pub const NB_ARGS: usize = " ++ Bytes.decimal p.arity ++ utf8 ";",
   [],
   utf8 "    pub fn new(" ++ params p ++ utf8 ") -> Self \x7b",
   utf8 "        Self \x7b " ++ fields p ++ utf8 " \x7d",
   utf8 "    \x7d"]

/-- The accessor of an argument, after a blank line. -/
def accessorLines (a : Arg) : List Bytes :=
  [[],
   utf8 "    pub fn " ++ a.name ++ utf8 "(&self) -> &" ++ a.type.target ++ utf8 " \x7b",
   utf8 "        &self." ++ a.name,
   utf8 "    \x7d"]

/-- The line that reads the argument at an index. -/
def letLine (a : Arg) (index : Nat) : Bytes :=
  utf8 "        let " ++ a.name ++ utf8 " = " ++ a.type.converter ++ utf8 "(&item.exprs[" ++
    Bytes.decimal index ++ utf8 "], model)?;"

/-- The lines that read the arguments, counted from an index. -/
def letLines : Nat → List Arg → List Bytes
  | _, [] => []
  | n, a :: as => letLine a n :: letLines (n + 1) as

/-- The reader of a constraint item. -/
def readerLines (modelParam : Bytes) (p : Predicate) : List Bytes :=
  [utf8 "    pub fn try_from_item(item: ConstraintItem, model: " ++ modelParam ++
     utf8 ") -> anyhow::Result<Self> \x7b",
   utf8 "        anyhow::ensure!(",
   utf8 "            item.id.as_str() == Self::NAME,",
   utf8 "            \"'\x7b\x7d' expected but received '\x7b\x7d'\",",
   utf8 "            Self::NAME,",
   utf8 "            item.id,",
   utf8 "        );",
   utf8 "        anyhow::ensure!(",
   utf8 "            item.exprs.len() == Self::NB_ARGS,",
   utf8 "            \"\x7b\x7d args expected but received \x7b\x7d\",",
   utf8 "            Self::NB_ARGS,",
   utf8 "            item.exprs.len(),",
   utf8 "        );"] ++
    letLines 0 p.args ++
  [utf8 "        Ok(Self::new(" ++ fields p ++ utf8 "))",
   utf8 "    \x7d"]

/-- The inherent implementation of the struct. -/
def implLines (modelParam : Bytes) (p : Predicate) : List Bytes :=
  [utf8 "impl " ++ p.typeName ++ utf8 " \x7b"] ++ constructorLines p ++
    p.args.flatMap accessorLines ++ [[]] ++ readerLines modelParam p ++ [utf8 "\x7d"]

/-- A placeholder per argument, for the format string. -/
def placeholders (p : Predicate) : Bytes :=
  Bytes.joined (utf8 ", ") (p.args.map fun _ => utf8 "\x7b\x7d")

/-- The line that writes an argument as FlatZinc. -/
def fznLine (a : Arg) : Bytes := utf8 "            self." ++ a.name ++ utf8 ".fzn(),"

/-- The implementation that writes the constraint as FlatZinc. -/
def fznLines (p : Predicate) : List Bytes :=
  [utf8 "impl Fzn for " ++ p.typeName ++ utf8 " \x7b",
   utf8 "    fn fzn(&self) -> String \x7b",
   utf8 "        format!(",
   utf8 "            \"\x7b\x7d(" ++ placeholders p ++ utf8 ")\\n\",",
   utf8 "            Self::NAME,"] ++
    p.args.map fznLine ++
  [utf8 "        )",
   utf8 "    \x7d",
   utf8 "\x7d"]

/-- The conversion from the constraint enum. -/
def downcastLines (p : Predicate) : List Bytes :=
  [utf8 "impl TryFrom<Constraint> for " ++ p.typeName ++ utf8 " \x7b",
   utf8 "    type Error = anyhow::Error;",
   [],
   utf8 "    fn try_from(value: Constraint) -> Result<Self, Self::Error> \x7b",
   utf8 "        match value \x7b",
   utf8 "            Constraint::" ++ p.typeName ++ utf8 "(c) => Ok(c),",
   utf8 "            _ => anyhow::bail!(\"unable to downcast to " ++ p.typeName ++ utf8 "\"),",
   utf8 "        \x7d",
   utf8 "    \x7d",
   utf8 "\x7d"]

/-- The conversion to the constraint enum. -/
def upcastLines (p : Predicate) : List Bytes :=
  [utf8 "impl From<" ++ p.typeName ++ utf8 "> for Constraint \x7b",
   utf8 "    fn from(value: " ++ p.typeName ++ utf8 ") -> Self \x7b",
   utf8 "        Self::" ++ p.typeName ++ utf8 "(value)",
   utf8 "    \x7d",
   utf8 "\x7d"]

/-! ## The file -/

/-- The lines of a predicate's file below the header. -/
def lines (o : Options) (p : Predicate) : List Bytes :=
  importLines (Imports.groups o.crate p) ++ [[]] ++
    docLines p ++ structLines o.derive p ++ [[]] ++
    implLines o.modelParam p ++ [[]] ++
    fznLines p ++ [[]] ++
    downcastLines p ++ [[]] ++
    upcastLines p

/-- Where a predicate's file goes. -/
def path (p : Predicate) : Bytes := Path.join OutputFile.builtinsDir (p.name ++ utf8 ".rs")

end PredicateFile

/-- The file generated for a predicate. -/
def Predicate.emit (o : Options) (p : Predicate) : OutputFile :=
  OutputFile.ofLines (PredicateFile.path p) (PredicateFile.lines o p)

end ZincBind

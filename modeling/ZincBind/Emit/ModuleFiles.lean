import ZincBind.Emit.PredicateFile

/-!
# ZincBind.Emit.ModuleFiles

The three files that depend on the whole list of predicates, and the generation of everything:
the module of the builtins, the constraint enum and the constraint module first, then one file
per predicate in order.
-/

namespace ZincBind

namespace ModuleFiles

/-- The line that declares a predicate's module. -/
def modLine (p : Predicate) : Bytes := utf8 "mod " ++ p.name ++ utf8 ";"

/-- The line that exports a predicate's type. -/
def useLine (p : Predicate) : Bytes :=
  utf8 "pub use " ++ p.name ++ utf8 "::" ++ p.typeName ++ utf8 ";"

/-- The module of the builtins. -/
def builtins (ps : List Predicate) : OutputFile :=
  OutputFile.ofLines (Path.join OutputFile.builtinsDir (utf8 "mod.rs"))
    (ps.map modLine ++ [[]] ++ ps.map useLine)

/-- The line of an enum variant. -/
def variantLine (p : Predicate) : Bytes :=
  utf8 "    " ++ p.typeName ++ utf8 "(" ++ p.typeName ++ utf8 "),"

/-- The constraint enum. -/
def constraint (o : Options) (ps : List Predicate) : OutputFile :=
  OutputFile.ofLines (utf8 "constraint.rs")
    ([utf8 "use " ++ o.crate ++ utf8 "::constraint::builtins::*;",
      [],
      o.derive,
      utf8 "pub enum Constraint \x7b"] ++
      ps.map variantLine ++
      [utf8 "\x7d"])

/-- The constraint module. -/
def root : OutputFile :=
  OutputFile.ofLines (utf8 "mod.rs")
    [utf8 "pub mod builtins;",
     utf8 "mod constraint;",
     [],
     utf8 "pub use constraint::Constraint;"]

end ModuleFiles

/-- The files that depend on the whole list of predicates. -/
def aggregate (o : Options) (ps : List Predicate) : List OutputFile :=
  [ModuleFiles.builtins ps, ModuleFiles.constraint o ps, ModuleFiles.root]

/-- Every file for the predicates. -/
def generate (o : Options) (ps : List Predicate) : List OutputFile :=
  aggregate o ps ++ ps.map (Predicate.emit o)

/-- There are three files more than predicates. -/
theorem length_generate (o : Options) (ps : List Predicate) :
    (generate o ps).length = ps.length + 3 := by
  simp [generate, aggregate]

end ZincBind

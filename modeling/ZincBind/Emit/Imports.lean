import ZincBind.Declaration.Predicate
import ZincBind.Emit.Options

/-!
# ZincBind.Emit.Imports

The paths a generated file imports, in groups: the standard library, other crates, and the crate
itself. The last group is an ordered set, so it depends on which argument types occur and not on
their order or number.
-/

namespace ZincBind

namespace Imports

/-- The standard library is needed for shared values only. -/
def standard (args : List Arg) : List Bytes :=
  if args.any (·.type.shared) then [utf8 "std::rc::Rc"] else []

/-- What comes from other crates. -/
def external : List Bytes := [utf8 "flatzinc::ConstraintItem"]

/-- The crate paths one argument type needs: its reader, and its Rust type if it is not built
in. -/
def ofType (crate : Bytes) (t : ArgType) : List Bytes :=
  (crate ++ utf8 "::parser::" ++ t.converter) ::
    if t.importPath.isEmpty then [] else [crate ++ utf8 "::" ++ t.importPath]

/-- The crate paths every file needs. -/
def fixed (crate : Bytes) : List Bytes :=
  [crate ++ utf8 "::Fzn", crate ++ utf8 "::constraint::Constraint", crate ++ utf8 "::model::Model"]

/-- The crate's own paths in ascending order. -/
def localPaths (crate : Bytes) (args : List Arg) : List Bytes :=
  Bytes.ordered (fixed crate ++ args.flatMap fun a => ofType crate a.type)

/-- The import groups of a predicate's file, without empty ones. -/
def groups (crate : Bytes) (p : Predicate) : List (List Bytes) :=
  [standard p.args, external, localPaths crate p.args].filter (!·.isEmpty)

end Imports

end ZincBind

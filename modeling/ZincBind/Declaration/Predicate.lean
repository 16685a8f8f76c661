import ZincBind.Declaration.ArgType
import ZincBind.Declaration.Camel

/-!
# ZincBind.Declaration.Predicate

Predicate declarations: a name and its typed arguments, with the text they are written as.
-/

namespace ZincBind

/-- One argument of a predicate. -/
structure Arg where
  /-- Its type. -/
  type : ArgType
  /-- The name it is known by. -/
  name : Bytes
deriving DecidableEq, Repr

/-- A predicate declaration. -/
structure Predicate where
  /-- The FlatZinc name, such as `int_lin_eq`. -/
  name : Bytes
  /-- The arguments in declaration order. -/
  args : List Arg
deriving DecidableEq, Repr

/-- An argument as written: its type's spelling, a colon, its name. -/
def Arg.render (a : Arg) : Bytes := a.type.token ++ utf8 ": " ++ a.name

namespace Predicate

/-- The name of the Rust type generated for the predicate. -/
def typeName (p : Predicate) : Bytes := p.name.camel

/-- The number of arguments. -/
def arity (p : Predicate) : Nat := p.args.length

/-- The declaration as FlatZinc text. -/
def render (p : Predicate) : Bytes :=
  utf8 "predicate " ++ p.name ++ utf8 "(" ++ Bytes.joined (utf8 ", ") (p.args.map Arg.render) ++
    utf8 ")"

end Predicate

end ZincBind

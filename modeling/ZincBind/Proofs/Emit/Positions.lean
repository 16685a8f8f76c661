import ZincBind.Proofs.Emit.Execution

/-!
# ZincBind.Proofs.Emit.Positions

The position of an argument in a predicate's file.  The file goes through the arguments many times:
fields, parameters, accessors, bindings, the call of the constructor, the struct literal, and what
is written.  Read back, each of them has the arguments in the order of the declaration
(`positions_emit`).

What this is good for is said by the program of the file.  It has one exactly if the declaration
spares the names that the file has a use for (`Predicate.SparesNames`); and then what stands at a
position of a constraint item is stored in the field at this position and written there again.
-/

namespace ZincBind

open Bytes

/-- A file that has these arguments, in this order, wherever it goes through them. -/
structure OutputFile.Positions (f : OutputFile) (args : List Arg) : Prop where
  fields : f.fields = args.map fun a => (a.name, a.type.target)
  params : f.params = args.map fun a => (a.name, a.type.target)
  accessors : f.accessors = args.map fun a => (a.name, a.type.target)
  returned : f.returned = args.map Arg.name
  bindings : f.bindings = args.zipIdx.map fun (a, i) => ⟨a.name, a.type.converter, i⟩
  call : f.call = args.map Arg.name
  literal : f.literal = args.map Arg.name
  written : f.written = args.map Arg.name
  arities : f.arities = [decimal args.length]
  format : ∃ format, f.formatString? = some format ∧ placeholderCount format = args.length + 1

theorem PredicateFile.positions_emit {o : Options} (ho : o.IsInline) {p : Predicate}
    (hp : p.IsDeclarable) : (p.emit o).Positions p.args where
  fields := fields_emit ho hp
  params := params_emit ho hp
  accessors := accessors_emit ho hp
  returned := returned_emit ho hp
  bindings := bindings_emit ho hp
  call := call_emit ho hp
  literal := literal_emit ho hp
  written := written_emit ho hp
  arities := arities_emit ho hp
  format := ⟨_, formatString?_emit ho hp, placeholderCount_format p⟩

/-- The program of a file, in a language with the given keywords. -/
def OutputFile.program? (f : OutputFile) (keywords : List Bytes) : Option Program :=
  f.code?.bind (·.program? keywords)

section

variable {o : Options} (ho : o.IsInline) {p : Predicate} (hp : p.IsDeclarable)
  {keywords : List Bytes}
include ho hp

theorem program?_emit (h : p.SparesNames keywords) :
    (p.emit o).program? keywords = some p.program := by
  rw [OutputFile.program?, code?_emit ho hp, Option.bind_some, program?_code hp h]

theorem program?_emit_eq_none (h : ¬ p.SparesNames keywords) :
    (p.emit o).program? keywords = none := by
  rw [OutputFile.program?, code?_emit ho hp, Option.bind_some]
  exact Option.eq_none_iff_forall_ne_some.2 fun _ hprogram =>
    h (sparesNames_of_program? hp hprogram)

end

/-- The keywords of the language in its edition of 2021, with those that are only reserved. -/
def keywords2021 : List Bytes :=
  ["abstract", "as", "async", "await", "become", "box", "break", "const", "continue", "crate", "do",
    "dyn", "else", "enum", "extern", "false", "final", "fn", "for", "if", "impl", "in", "let",
    "loop", "macro", "match", "mod", "move", "mut", "override", "priv", "pub", "ref", "return",
    "self", "Self", "static", "struct", "super", "trait", "true", "try", "type", "typeof", "unsafe",
    "unsized", "use", "virtual", "where", "while", "yield"].map utf8

/-- The predicate of `predicate pick(var int: chosen, int: var_int_from_expr, var bool: model)`. -/
def pick : Predicate :=
  ⟨utf8 "pick",
    [⟨ArgType.ofTarget "var int" "Rc<VarInt>" "var::VarInt" "var_int_from_expr", utf8 "chosen"⟩,
     ⟨ArgType.ofTarget "int" "Int" "types::Int" "int_from_expr", utf8 "var_int_from_expr"⟩,
     ⟨ArgType.ofTarget "var bool" "Rc<VarBool>" "var::VarBool" "var_bool_from_expr",
      utf8 "model"⟩]⟩

/-- Its second argument hides the converter of the first and its last the model, when they are not
needed any more. -/
theorem spares_pick : pick.SparesNames keywords2021 where
  distinct := by decide
  variable_names := by decide
  members := by decide
  unhidden := by decide
  type_name := by decide
  type_names := by decide

/-- A converter that keeps what it was called with; the model counts the calls. -/
def counted (converter : Bytes) (n : Nat) : Action Nat (Bytes × Nat) := do
  modify (· + 1)
  return (converter, n)

/-- The predicate of `predicate p(int: int_from_expr, int: b)`. -/
def hidingConverter : Predicate :=
  ⟨utf8 "p",
    [⟨ArgType.ofTarget "int" "Int" "types::Int" "int_from_expr", utf8 "int_from_expr"⟩,
     ⟨ArgType.ofTarget "int" "Int" "types::Int" "int_from_expr", utf8 "b"⟩]⟩

end ZincBind

import ZincBind.Bytes

/-!
# ZincBind.Declaration.ArgType

The types an argument may have. Each names the FlatZinc spelling of the type, the Rust type that
stores a value of it, and the function that reads such a value out of an expression. The set is
closed: `ArgType.registry` lists all of it, and a spelling is looked up by exact equality.
-/

namespace ZincBind

/-- A FlatZinc argument type and its Rust representation. -/
structure ArgType where
  /-- The FlatZinc spelling, such as `array [int] of var int`. -/
  token : Bytes
  /-- The Rust type, such as `Vec<Rc<VarInt>>`. -/
  target : Bytes
  /-- The path of the Rust type below the crate module; empty for a type that needs none. -/
  importPath : Bytes
  /-- The function that reads a value out of an expression. -/
  converter : Bytes
  /-- Whether the Rust type shares its value through `Rc`. -/
  shared : Bool
  /-- Whether the Rust type is a `Vec`. -/
  collection : Bool
deriving DecidableEq, Repr

namespace ArgType

/-- A type whose sharing and collection marks are read off its Rust spelling. -/
def ofTarget (token target importPath converter : String) : ArgType where
  token := utf8 token
  target := utf8 target
  importPath := utf8 importPath
  converter := utf8 converter
  shared := Bytes.hasRun (utf8 "Rc<") (utf8 target)
  collection := Bytes.hasRun (utf8 "Vec<") (utf8 target)

/-- Every type an argument may have. -/
def registry : List ArgType :=
  [ofTarget "int" "Int" "types::Int" "int_from_expr",
   ofTarget "var int" "Rc<VarInt>" "var::VarInt" "var_int_from_expr",
   ofTarget "array [int] of int" "Vec<Int>" "types::Int" "vec_int_from_expr",
   ofTarget "array [int] of var int" "Vec<Rc<VarInt>>" "var::VarInt" "vec_var_int_from_expr",
   ofTarget "bool" "bool" "" "bool_from_expr",
   ofTarget "var bool" "Rc<VarBool>" "var::VarBool" "var_bool_from_expr",
   ofTarget "array [int] of bool" "Vec<bool>" "" "vec_bool_from_expr",
   ofTarget "array [int] of var bool" "Vec<Rc<VarBool>>" "var::VarBool" "vec_var_bool_from_expr"]

/-- The type with exactly this spelling. -/
def lookup (token : Bytes) : Option ArgType := registry.find? (·.token == token)

/-- What a look-up finds is in the registry and has the spelling asked for. -/
theorem lookup_eq_some {token : Bytes} {t : ArgType} (h : lookup token = some t) :
    t ∈ registry ∧ t.token = token := by
  refine ⟨List.mem_of_find?_eq_some h, ?_⟩
  simpa using List.find?_some h

end ArgType

end ZincBind

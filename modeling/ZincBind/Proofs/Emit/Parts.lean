import ZincBind.Proofs.Emit.Lines

/-!
# ZincBind.Proofs.Emit.Parts

What the lines of an implementation say.  A line is told by how it begins, so reading it takes
neither the predicate nor its type (`Part.ofLine?`): a constant, a function, a struct literal, a
returned field, a binding or a call of the constructor.  Read back, the lines written for a
predicate say these parts in this order, and nothing else:

* `filterMap_constructorLines` — the constants and the constructor;
* `filterMap_accessorLines` — an accessor;
* `filterMap_readerLines` — the reader, with a binding for each argument.
-/

namespace ZincBind

open Bytes Grammar

/-! ## What lines say -/

/-- A line that binds a name to a converted expression of the constraint item. -/
structure Binding where
  name : Bytes
  converter : Bytes
  index : Nat
deriving DecidableEq, Repr

/-- What a line of an implementation says. -/
inductive Part where
  /-- A constant has a value. -/
  | constant (name value : Bytes)
  /-- A function has a name; the signature is what follows the parenthesis. -/
  | function (name signature : Bytes)
  /-- A struct is built from these variables. -/
  | literal (fields : Bytes)
  /-- A field is returned. -/
  | returned (field : Bytes)
  /-- A name is bound. -/
  | binding (b : Binding)
  /-- The constructor is called with these variables. -/
  | call (arguments : Bytes)
deriving DecidableEq, Repr

/-- A name and a type with a colon between them. -/
def typed? (bs : Bytes) : Option (Bytes × Bytes) := do
  let (name, rest) ← cut? (byte ':') bs
  let type ← after? (utf8 " ") rest
  return (name, type)

namespace Part

/-- `NAME: type = value;` -/
def constant? (bs : Bytes) : Option Part := do
  let (name, rest) ← cut? (byte ':') bs
  let (_, rest) ← cut? (byte '=') rest
  let value ← between? (utf8 " ") (utf8 ";") rest
  return .constant name value

/-- `name(signature` -/
def function? (bs : Bytes) : Option Part :=
  (cut? (byte '(') bs).map fun (name, signature) => .function name signature

/-- `name = converter(&item.exprs[index], model)?;` -/
def binding? (bs : Bytes) : Option Part := do
  let bs ← before? (utf8 "], model)?;") bs
  let (name, rest) ← cut? (byte ' ') bs
  let rest ← after? (utf8 "= ") rest
  let (converter, rest) ← cut? (byte '(') rest
  let numeral ← after? (utf8 "&item.exprs[") rest
  let index ← numeral? numeral
  return .binding ⟨name, converter, index⟩

/-- What a line says, which is told by how it begins. -/
def ofLine? (l : Bytes) : Option Part :=
  ((after? (utf8 "    pub const ") l).bind constant?).or <|
  ((after? (utf8 "    pub fn ") l).bind function?).or <|
  ((between? (utf8 "        Self \x7b ") (utf8 " \x7d") l).map .literal).or <|
  ((after? (utf8 "        &self.") l).map .returned).or <|
  ((after? (utf8 "        let ") l).bind binding?).or <|
  (between? (utf8 "        Ok(Self::new(") (utf8 "))") l).map .call

/-- The item that a line declares. -/
def item? : Part → Option Bytes
  | constant name _ | function name _ => some name
  | _ => none

/-- The value of a constant with this name. -/
def value? (name : Bytes) : Part → Option Bytes
  | constant name' value => if name' = name then some value else none
  | _ => none

/-- The parameters of the constructor. -/
def params? : Part → Option (List (Bytes × Bytes))
  | function name signature =>
    if name = utf8 "new" then
      (before? (utf8 ") -> Self \x7b") signature).map fun ps => (listed ps).filterMap typed?
    else none
  | _ => none

/-- The name and the type of an accessor. -/
def accessor? : Part → Option (Bytes × Bytes)
  | function name signature =>
    (between? (utf8 "&self) -> &") (utf8 " \x7b") signature).map fun type => (name, type)
  | _ => none

/-- The field that is returned. -/
def returned? : Part → Option Bytes
  | returned field => some field
  | _ => none

/-- The variables that a struct is built from. -/
def literal? : Part → Option (List Bytes)
  | literal fields => some (listed fields)
  | _ => none

/-- The name that is bound. -/
def toBinding? : Part → Option Binding
  | binding b => some b
  | _ => none

/-- The variables that the constructor is called with. -/
def call? : Part → Option (List Bytes)
  | call arguments => some (listed arguments)
  | _ => none

end Part

/-! ## Lines that say something -/

theorem typed?_append {name : Bytes} (h : IsName name) (type : Bytes) :
    typed? (name ++ utf8 ": " ++ type) = some (name, type) := by
  have hcolon : byte ':' ∉ name := h.not_mem (by decide)
  have hsep : utf8 ": " = byte ':' :: utf8 " " := rfl
  simp only [typed?, hsep, List.append_assoc, List.cons_append, cut?_append hcolon, after?_append,
    Option.bind_eq_bind, Option.bind_some, Option.pure_def]

namespace Part

section

variable (rest : Bytes)

theorem ofLine?_const : ofLine? (utf8 "    pub const " ++ rest) = constant? rest := by
  simp (disch := exact ⟨_, _, rfl, rfl, by decide⟩) only [ofLine?, between?, after?_append,
    after?_literal, Option.bind_some, Option.bind_none, Option.map_none, Option.or_none]

theorem ofLine?_fn : ofLine? (utf8 "    pub fn " ++ rest) = function? rest := by
  simp (disch := exact ⟨_, _, rfl, rfl, by decide⟩) only [ofLine?, between?, after?_append,
    after?_literal, Option.bind_some, Option.bind_none, Option.map_none, Option.or_none,
    Option.none_or]

theorem ofLine?_literal :
    ofLine? (utf8 "        Self \x7b " ++ (rest ++ utf8 " \x7d")) = some (.literal rest) := by
  simp (disch := exact ⟨_, _, rfl, rfl, by decide⟩) only [ofLine?, between?_append,
    after?_literal, Option.bind_none, Option.map_some, Option.some_or, Option.none_or]

theorem ofLine?_returned : ofLine? (utf8 "        &self." ++ rest) = some (.returned rest) := by
  simp (disch := exact ⟨_, _, rfl, rfl, by decide⟩) only [ofLine?, between?, after?_append,
    after?_literal, Option.bind_none, Option.map_some, Option.map_none, Option.some_or,
    Option.none_or]

theorem ofLine?_let : ofLine? (utf8 "        let " ++ rest) = binding? rest := by
  simp (disch := exact ⟨_, _, rfl, rfl, by decide⟩) only [ofLine?, between?, after?_append,
    after?_literal, Option.bind_some, Option.bind_none, Option.map_none, Option.or_none,
    Option.none_or]

theorem ofLine?_call :
    ofLine? (utf8 "        Ok(Self::new(" ++ (rest ++ utf8 "))")) = some (.call rest) := by
  simp (disch := exact ⟨_, _, rfl, rfl, by decide⟩) only [ofLine?, between?_append,
    between?_literal, after?_literal, Option.bind_none, Option.map_some, Option.map_none,
    Option.none_or]

end

theorem ofLine?_nil : ofLine? [] = none := by decide

/-- The brace that closes a function. -/
theorem ofLine?_brace : ofLine? (utf8 "    \x7d") = none := by decide

theorem constant?_append {name type : Bytes} (hname : byte ':' ∉ name) (htype : byte '=' ∉ type)
    (value : Bytes) :
    constant? (name ++ utf8 ": " ++ type ++ utf8 " = " ++ value ++ utf8 ";") =
      some (.constant name value) := by
  have hcolon : utf8 ": " = byte ':' :: utf8 " " := rfl
  have hequals : utf8 " = " = utf8 " " ++ byte '=' :: utf8 " " := rfl
  have hleft : byte '=' ∉ utf8 " " ++ (type ++ utf8 " ") := by
    simp only [List.mem_append, not_or]
    exact ⟨by decide, htype, by decide⟩
  have hcut := cut?_append hleft (utf8 " " ++ (value ++ utf8 ";"))
  simp only [List.append_assoc] at hcut
  simp only [constant?, hcolon, hequals, List.append_assoc, List.cons_append, cut?_append hname,
    hcut, between?_append, Option.bind_eq_bind, Option.bind_some, Option.pure_def]

theorem function?_append {name : Bytes} (h : byte '(' ∉ name) (signature : Bytes) :
    function? (name ++ utf8 "(" ++ signature) = some (.function name signature) := by
  have hopen : utf8 "(" = [byte '('] := rfl
  rw [function?, hopen, List.append_assoc, List.singleton_append, cut?_append h, Option.map_some]

end Part

namespace PredicateFile

/-! ## What the lines of the implementation say -/

/-- The bindings that read arguments, each at its own position. -/
def bindingsOf (args : List Arg) : List Binding :=
  args.zipIdx.map fun (a, i) => ⟨a.name, a.type.converter, i⟩

/-- What the constants and the constructor say. -/
def constructorParts (p : Predicate) : List Part :=
  [.constant (utf8 "NAME") (utf8 "\"" ++ p.name ++ utf8 "\""),
   .constant (utf8 "NB_ARGS") (decimal p.arity),
   .function (utf8 "new") (params p ++ utf8 ") -> Self \x7b"),
   .literal (fields p)]

/-- What the accessor of an argument says. -/
def accessorParts (a : Arg) : List Part :=
  [.function a.name (utf8 "&self) -> &" ++ (a.type.target ++ utf8 " \x7b")), .returned a.name]

/-- What the reader of a constraint item says. -/
def readerParts (modelParam : Bytes) (p : Predicate) : List Part :=
  .function (utf8 "try_from_item")
      (utf8 "item: ConstraintItem, model: " ++ (modelParam ++
        utf8 ") -> anyhow::Result<Self> \x7b")) ::
    ((bindingsOf p.args).map .binding ++ [.call (fields p)])

/-- What the lines of the implementation say. -/
def implParts (modelParam : Bytes) (p : Predicate) : List Part :=
  constructorParts p ++ p.args.flatMap accessorParts ++ readerParts modelParam p

section

variable (p : Predicate)

theorem ofLine?_nameLine :
    Part.ofLine? (utf8 "    pub const NAME: &str = \"" ++ (p.name ++ utf8 "\";")) =
      some (.constant (utf8 "NAME") (utf8 "\"" ++ p.name ++ utf8 "\"")) := by
  have hstart : utf8 "    pub const NAME: &str = \"" =
      utf8 "    pub const " ++ (utf8 "NAME" ++ utf8 ": " ++ utf8 "&str" ++ utf8 " = " ++
        utf8 "\"") := by decide
  have hend : utf8 "\";" = utf8 "\"" ++ utf8 ";" := by decide
  have hvalue := Part.constant?_append (by decide : byte ':' ∉ utf8 "NAME")
    (by decide : byte '=' ∉ utf8 "&str") (utf8 "\"" ++ p.name ++ utf8 "\"")
  simp only [List.append_assoc] at hvalue
  simp only [hstart, hend, List.append_assoc, Part.ofLine?_const, hvalue]

theorem ofLine?_arityLine :
    Part.ofLine? (utf8 "    pub const NB_ARGS: usize = " ++ (decimal p.arity ++ utf8 ";")) =
      some (.constant (utf8 "NB_ARGS") (decimal p.arity)) := by
  have hstart : utf8 "    pub const NB_ARGS: usize = " =
      utf8 "    pub const " ++ (utf8 "NB_ARGS" ++ utf8 ": " ++ utf8 "usize" ++ utf8 " = ") := by
    decide
  have hvalue := Part.constant?_append (by decide : byte ':' ∉ utf8 "NB_ARGS")
    (by decide : byte '=' ∉ utf8 "usize") (decimal p.arity)
  simp only [List.append_assoc] at hvalue
  simp only [hstart, List.append_assoc, Part.ofLine?_const, hvalue]

theorem ofLine?_newLine :
    Part.ofLine? (utf8 "    pub fn new(" ++ (params p ++ utf8 ") -> Self \x7b")) =
      some (.function (utf8 "new") (params p ++ utf8 ") -> Self \x7b")) := by
  have hstart : utf8 "    pub fn new(" = utf8 "    pub fn " ++ (utf8 "new" ++ utf8 "(") := by
    decide
  rw [hstart, List.append_assoc, Part.ofLine?_fn, Part.function?_append (by decide)]

theorem filterMap_constructorLines :
    (constructorLines p).filterMap Part.ofLine? = constructorParts p := by
  simp only [constructorLines, constructorParts, List.append_assoc, List.filterMap_cons,
    List.filterMap_nil, ofLine?_nameLine, ofLine?_arityLine, ofLine?_newLine, Part.ofLine?_literal,
    Part.ofLine?_nil, Part.ofLine?_brace]

end

theorem ofLine?_accessorLine {a : Arg} (h : IsName a.name) :
    Part.ofLine? (utf8 "    pub fn " ++ (a.name ++ (utf8 "(&self) -> &" ++
      (a.type.target ++ utf8 " \x7b")))) =
      some (.function a.name (utf8 "&self) -> &" ++ (a.type.target ++ utf8 " \x7b"))) := by
  have hopen : utf8 "(&self) -> &" = utf8 "(" ++ utf8 "&self) -> &" := by decide
  have hsplit := Part.function?_append (h.not_mem (by decide) : byte '(' ∉ a.name)
    (utf8 "&self) -> &" ++ (a.type.target ++ utf8 " \x7b"))
  rw [List.append_assoc] at hsplit
  rw [hopen, List.append_assoc, Part.ofLine?_fn, hsplit]

theorem filterMap_accessorLines {a : Arg} (h : IsName a.name) :
    (accessorLines a).filterMap Part.ofLine? = accessorParts a := by
  simp only [accessorLines, accessorParts, List.append_assoc, List.filterMap_cons,
    List.filterMap_nil, Part.ofLine?_nil, ofLine?_accessorLine h, Part.ofLine?_returned,
    Part.ofLine?_brace]

/-- The line that reads an argument. -/
theorem ofLine?_letLine {a : Arg} (hname : IsName a.name) (htype : a.type ∈ ArgType.registry)
    (index : Nat) :
    Part.ofLine? (letLine a index) = some (.binding ⟨a.name, a.type.converter, index⟩) := by
  have hopen : ∀ t ∈ ArgType.registry, byte '(' ∉ t.converter := by decide
  have hblank : byte ' ' ∉ a.name := hname.not_mem (by decide)
  have hequals : utf8 " = " = byte ' ' :: utf8 "= " := rfl
  have hitem : utf8 "(&item.exprs[" = byte '(' :: utf8 "&item.exprs[" := rfl
  have hline : letLine a index =
      utf8 "        let " ++ ((a.name ++ byte ' ' :: (utf8 "= " ++ (a.type.converter ++
        byte '(' :: (utf8 "&item.exprs[" ++ decimal index)))) ++ utf8 "], model)?;") := by
    simp only [letLine, hequals, hitem, List.append_assoc, List.cons_append]
  simp only [hline, Part.ofLine?_let, Part.binding?, before?_append, cut?_append hblank,
    after?_append, cut?_append (hopen a.type htype), numeral?_decimal, Option.bind_eq_bind,
    Option.bind_some, Option.pure_def]

theorem filterMap_letLines {args : List Arg} (hname : ∀ a ∈ args, IsName a.name)
    (htype : ∀ a ∈ args, a.type ∈ ArgType.registry) (n : Nat) :
    (letLines n args).filterMap Part.ofLine? =
      (args.zipIdx n).map fun (a, i) => .binding ⟨a.name, a.type.converter, i⟩ := by
  induction args generalizing n with
  | nil => rfl
  | cons a as ih =>
      obtain ⟨hname, hnames⟩ := List.forall_mem_cons.1 hname
      obtain ⟨htype, htypes⟩ := List.forall_mem_cons.1 htype
      rw [letLines, List.filterMap_cons_some (ofLine?_letLine hname htype n), ih hnames htypes,
        List.zipIdx_cons, List.map_cons]

/-- The lines of the reader that check the item: they are the same for all predicates. -/
def checkLines : List Bytes := ((readerLines [] ⟨[], []⟩).drop 1).dropLast.dropLast

theorem readerLines_eq (modelParam : Bytes) (p : Predicate) :
    readerLines modelParam p =
      (utf8 "    pub fn try_from_item(item: ConstraintItem, model: " ++ modelParam ++
          utf8 ") -> anyhow::Result<Self> \x7b") ::
        (checkLines ++ letLines 0 p.args ++
          [utf8 "        Ok(Self::new(" ++ fields p ++ utf8 "))", utf8 "    \x7d"]) := rfl

theorem ofLine?_readerLine (rest : Bytes) :
    Part.ofLine? (utf8 "    pub fn try_from_item(item: ConstraintItem, model: " ++ rest) =
      some (.function (utf8 "try_from_item") (utf8 "item: ConstraintItem, model: " ++ rest)) := by
  have hstart : utf8 "    pub fn try_from_item(item: ConstraintItem, model: " =
      utf8 "    pub fn " ++ (utf8 "try_from_item" ++ utf8 "(" ++
        utf8 "item: ConstraintItem, model: ") := by decide
  rw [hstart, List.append_assoc, List.append_assoc, Part.ofLine?_fn,
    Part.function?_append (by decide)]

theorem filterMap_readerLines (modelParam : Bytes) {p : Predicate} (hp : p.IsDeclarable) :
    (readerLines modelParam p).filterMap Part.ofLine? = readerParts modelParam p := by
  have hlet : (letLines 0 p.args).filterMap Part.ofLine? = (bindingsOf p.args).map .binding := by
    rw [filterMap_letLines (fun a ha => (hp.arg_name a ha).1) hp.type_mem, bindingsOf, List.map_map]
    rfl
  have hcheck : checkLines.filterMap Part.ofLine? = [] := by decide
  simp only [readerLines_eq, readerParts, List.append_assoc, List.filterMap_append,
    List.filterMap_cons, List.filterMap_nil, ofLine?_readerLine, hcheck, hlet, Part.ofLine?_call,
    Part.ofLine?_brace, List.nil_append]

end PredicateFile

end ZincBind

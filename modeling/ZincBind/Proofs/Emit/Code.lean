import ZincBind.Proofs.Emit.Hygiene

/-!
# ZincBind.Proofs.Emit.Code

The code of a predicate's file.  `OutputFile.parts` picks the lines it knows out of an
implementation; here nothing is passed over that takes part in reading or writing a constraint.  The
implementation falls into members, a function into statements and a statement into operands, and a
line that is none of these, wherever it stands in them, leaves a file without code
(`OutputFile.code?`).

Below the definitions there is what is needed of format strings and calls; that the files of
predicates have code is `code?_emit` in `ZincBind.Proofs.Emit.EmittedCode`.
-/

namespace ZincBind

open Bytes Grammar

/-! ## Operands and texts -/

/-- What checks compare and texts show. -/
inductive Operand where
  /-- A constant of the implementation. -/
  | constant (name : Bytes)
  /-- The name of the constraint item. -/
  | id
  /-- The number of expressions of the constraint item. -/
  | count
  /-- A field, as FlatZinc. -/
  | field (name : Bytes)
deriving DecidableEq, Repr

/-- The operand that an expression spells. -/
def Operand.ofText? (bs : Bytes) : Option Operand :=
  if bs = utf8 "item.id" ∨ bs = utf8 "item.id.as_str()" then some .id
  else if bs = utf8 "item.exprs.len()" then some .count
  else
    ((after? (utf8 "Self::") bs).map .constant).or
      ((between? (utf8 "self.") (utf8 ".fzn()") bs).map .field)

/-- What stands for something else in a format string. -/
def formatMarks : Bytes := utf8 "\x7b\x7d\\\""

/-- The texts around the placeholders of a format string.  Braces that are no placeholder and
escapes that are no line feed are not read. -/
def template? : Bytes → Option (List Bytes)
  | b :: c :: rest =>
    if b = byte '\x7b' ∧ c = byte '\x7d' then (template? rest).map ([] :: ·)
    else if b = byte '\\' ∧ c = byte 'n' then
      (template? rest).map (List.modifyHead (byte '\n' :: ·))
    else if b ∈ formatMarks then none
    else (template? (c :: rest)).map (List.modifyHead (b :: ·))
  | [b] => if b ∈ formatMarks then none else some [[b]]
  | [] => some [[]]

/-- A text with placeholders and what is put in their place. -/
structure Message (α : Type) where
  /-- The texts around the placeholders. -/
  template : List Bytes
  /-- What is put in their place. -/
  operands : List α
deriving DecidableEq, Repr

/-- A format string and an operand for each of its placeholders. -/
def Message.ofTexts? : List Bytes → Option (Message Operand)
  | [] => none
  | literal :: shown => do
    let template ← (between? (utf8 "\"") (utf8 "\"") literal).bind template?
    let operands ← shown.mapM Operand.ofText?
    if template.length = operands.length + 1 then some ⟨template, operands⟩ else none

/-- The arguments of a call that has a line for each of them. -/
def spread? (opening closing : Bytes) : List Bytes → Option (List Bytes)
  | [] => none
  | top :: below =>
    if top = opening ∧ below.getLast? = some closing then
      below.dropLast.mapM (between? (utf8 "            ") (utf8 ","))
    else none

/-! ## Statements -/

/-- A statement of the reader. -/
inductive Statement where
  /-- Two operands have to be equal, or else the message is the error. -/
  | ensure (left right : Operand) (message : Message Operand)
  /-- A name is bound. -/
  | bind (b : Binding)
deriving DecidableEq, Repr

namespace Statement

/-- Whether a line of a function begins a statement: it is indented as such, and closes none. -/
def begins (l : Bytes) : Bool := (after? (utf8 "            ") l).isNone && l != utf8 "        );"

/-- A check, given by what it compares, the format string and what this shows. -/
def ensure? : List Bytes → Option Statement
  | [] => none
  | condition :: text => do
    let (left, rest) ← cut? (byte ' ') condition
    let right ← after? (utf8 "== ") rest
    return .ensure (← Operand.ofText? left) (← Operand.ofText? right) (← Message.ofTexts? text)

/-- A statement on its lines: a binding has one, a check has more. -/
def ofLines? (ls : List Bytes) : Option Statement :=
  match ls with
  | [l] => ((Part.ofLine? l).bind Part.toBinding?).map .bind
  | ls => (spread? (utf8 "        anyhow::ensure!(") (utf8 "        );") ls).bind ensure?

end Statement

/-! ## Members -/

/-- A member of an implementation. -/
inductive Member where
  /-- A constant and its value. -/
  | constant (name value : Bytes)
  /-- A function: its name, what follows the parenthesis, and the lines below without the brace. -/
  | function (name signature : Bytes) (body : List Bytes)
deriving DecidableEq, Repr

/-- The constructor: its parameters, and the variables it builds the struct from. -/
structure Builder where
  params : List Bytes
  literal : List Bytes
deriving DecidableEq, Repr

/-- The reader: its statements, and the variables it calls the constructor with. -/
structure Reader where
  statements : List Statement
  passed : List Bytes
deriving DecidableEq, Repr

namespace Member

/-- Whether a line begins a member. -/
def begins (l : Bytes) : Bool := (after? (utf8 "    pub ") l).isSome

/-- A member on its lines: a constant has one, a function ends with a brace. -/
def ofLines? : List Bytes → Option Member
  | [] => none
  | top :: below =>
    match Part.ofLine? top with
    | some (.constant name value) => if below = [] then some (.constant name value) else none
    | some (.function name signature) =>
      if below.getLast? = some (utf8 "    \x7d") then
        some (.function name signature below.dropLast)
      else none
    | _ => none

/-- The name of a member. -/
def name : Member → Bytes
  | constant name _ | function name _ _ => name

/-- A constant and its value. -/
def constant? : Member → Option (Bytes × Bytes)
  | constant name value => some (name, value)
  | function .. => none

/-- The constructor does nothing but build the struct. -/
def builder? : Member → Option Builder
  | function name signature [line] =>
    if name = utf8 "new" then do
      let list ← before? (utf8 ") -> Self \x7b") signature
      let params ← (listed list).mapM typed?
      let literal ← (Part.ofLine? line).bind Part.literal?
      return ⟨params.map Prod.fst, literal⟩
    else none
  | _ => none

/-- The reader has statements, and ends with the call of the constructor. -/
def reader? : Member → Option Reader
  | function name signature body =>
    if name = utf8 "try_from_item" then do
      let _ ← between? (utf8 "item: ConstraintItem, model: ")
        (utf8 ") -> anyhow::Result<Self> \x7b") signature
      let statements ← (body.dropLast.splitBy fun _ l => !Statement.begins l).mapM
        Statement.ofLines?
      let passed ← (body.getLast?.bind Part.ofLine?).bind Part.call?
      return ⟨statements, passed⟩
    else none
  | _ => none

end Member

/-! ## Files -/

/-- What a predicate's file says, as far as it takes part in reading and writing a constraint. -/
structure Code where
  /-- The names that are imported. -/
  imports : List Bytes
  /-- The name of the struct. -/
  type : Bytes
  /-- The fields of the struct, with their types. -/
  fields : List (Bytes × Bytes)
  /-- The names of the members of its implementation. -/
  members : List Bytes
  /-- The constants among them, with their values. -/
  constants : List (Bytes × Bytes)
  builder : Builder
  reader : Reader
  /-- The FlatZinc text. -/
  text : Message Operand
deriving DecidableEq, Repr

namespace OutputFile

variable (f : OutputFile)

/-- The members of the implementation, between which lines may be empty. -/
def members? : Option (List Member) :=
  ((f.implBlock.filter (· != [])).splitBy fun _ l => !Member.begins l).mapM Member.ofLines?

/-- The FlatZinc text: the one function of its implementation has a single call. -/
def text? : Option (Message Operand) :=
  match f.fznBlock with
  | [] => none
  | top :: below =>
    if top = utf8 "    fn fzn(&self) -> String \x7b" ∧ below.getLast? = some (utf8 "    \x7d") then
      (spread? (utf8 "        format!(") (utf8 "        )") below.dropLast).bind Message.ofTexts?
    else none

/-- The code of a file. -/
def code? : Option Code :=
  match f.structNames with
  | [type] => do
    let fields ← f.structBlock.mapM fun l => (between? (utf8 "    ") (utf8 ",") l).bind typed?
    let members ← f.members?
    let builder ← members.findSome? Member.builder?
    let reader ← members.findSome? Member.reader?
    let text ← f.text?
    return {
      imports := f.uses.map lastSegment, type, fields
      members := members.map Member.name
      constants := members.filterMap Member.constant?
      builder, reader, text }
  | _ => none

end OutputFile

/-! ## Texts of a predicate's file -/

theorem template?_pair (rest : Bytes) :
    template? (utf8 "\x7b\x7d" ++ rest) = (template? rest).map ([] :: ·) := by
  have hpair : utf8 "\x7b\x7d" = [byte '\x7b', byte '\x7d'] := by decide
  rw [hpair, List.cons_append, List.singleton_append, template?, if_pos ⟨rfl, rfl⟩]

theorem template?_cons {b : UInt8} (h : b ∉ formatMarks) (rest : Bytes) :
    template? (b :: rest) = (template? rest).map (List.modifyHead (b :: ·)) := by
  have hbrace : b ≠ byte '\x7b' := fun heq => h (heq ▸ by decide)
  have hescape : b ≠ byte '\\' := fun heq => h (heq ▸ by decide)
  cases rest with
  | nil =>
      rw [template?, if_neg h]
      rfl
  | cons c cs =>
      rw [template?, if_neg fun hpair => hbrace hpair.1, if_neg fun hpair => hescape hpair.1,
        if_neg h]

/-- Between placeholders there are commas. -/
theorem template?_list {α : Type} (x : α) (xs : List α) {rest : Bytes} {texts : List Bytes}
    (h : template? rest = some texts) :
    template? (joined (utf8 ", ") ((x :: xs).map fun _ => utf8 "\x7b\x7d") ++ rest) =
      some ([] :: (List.replicate xs.length (utf8 ", ") ++ texts)) := by
  induction xs generalizing x with
  | nil =>
      simp only [List.map_cons, List.map_nil, joined_singleton, template?_pair, h]
      rfl
  | cons y ys ih =>
      have hsep (bs : Bytes) : utf8 ", " ++ bs = byte ',' :: byte ' ' :: bs := rfl
      have hcomma : byte ',' ∉ formatMarks := by decide
      have hblank : byte ' ' ∉ formatMarks := by decide
      have hrest := ih y
      simp only [List.map_cons] at hrest ⊢
      rw [joined_cons_cons, List.append_assoc, List.append_assoc, template?_pair, hsep,
        template?_cons hcomma, template?_cons hblank, hrest]
      rfl

namespace Operand

theorem ofText?_constant (name : Bytes) :
    ofText? (utf8 "Self::" ++ name) = some (.constant name) := by
  have hne {s : String} (h : Clash s "Self::") : utf8 "Self::" ++ name ≠ utf8 s :=
    fun heq => literal_ne_append h name heq.symm
  simp (disch := exact ⟨_, _, rfl, rfl, by decide⟩) only [ofText?, hne, or_self, if_false,
    after?_append, Option.map_some, Option.some_or]

theorem ofText?_field (name : Bytes) :
    ofText? (utf8 "self." ++ (name ++ utf8 ".fzn()")) = some (.field name) := by
  have hne {s : String} (h : Clash s "self.") :
      utf8 "self." ++ (name ++ utf8 ".fzn()") ≠ utf8 s :=
    fun heq => literal_ne_append h _ heq.symm
  simp (disch := exact ⟨_, _, rfl, rfl, by decide⟩) only [ofText?, hne, or_self, if_false,
    after?_literal, between?_append, Option.map_none, Option.map_some, Option.none_or]

end Operand

theorem spread?_append (opening closing : Bytes) {ls arguments : List Bytes}
    (h : ls.mapM (between? (utf8 "            ") (utf8 ",")) = some arguments) :
    spread? opening closing (opening :: (ls ++ [closing])) = some arguments := by
  rw [spread?, List.getLast?_concat, List.dropLast_concat, if_pos ⟨rfl, rfl⟩, h]

end ZincBind

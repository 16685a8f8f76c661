import ZincBind.Proofs.Emit.Code

/-!
# ZincBind.Proofs.Emit.Program

What the code of a predicate's file does.  Names are resolved before anything runs, as the compiler
of the file would do it: a binding hides what had its name before, be it a parameter of the reader
or a function that was imported, and if a name then stands for something of the wrong kind, the code
has no program (`Code.program?`).  A program has no names of variables left, and can be run: it
reads a constraint item into the fields of the struct (`Program.load`), and writes these fields as
FlatZinc (`Program.print`).

Of the compiler's work only the names are looked at, and not the types.
-/

namespace ZincBind

open Bytes

/-! ## Resolved code -/

/-- A value of a constant. -/
inductive Datum where
  | text (bs : Bytes)
  | number (n : Nat)
deriving DecidableEq, Repr

namespace Datum

/-- The text of a string literal without escapes. -/
def literal? (bs : Bytes) : Option Bytes :=
  (between? (utf8 "\"") (utf8 "\"") bs).filter fun inner =>
    (utf8 "\"\\").all (!inner.contains ·)

/-- The value that a constant is given: a numeral or a string. -/
def ofText? (bs : Bytes) : Option Datum :=
  ((numeral? bs).map .number).or ((literal? bs).map .text)

/-- A value as it stands in a message. -/
def shown : Datum → Bytes
  | text bs => bs
  | number n => decimal n

end Datum

/-- What a check looks at. -/
inductive Side where
  | known (d : Datum)
  /-- The name of the item. -/
  | id
  /-- The number of its expressions. -/
  | count
deriving DecidableEq, Repr

/-- A part of the FlatZinc text. -/
inductive Piece where
  | known (d : Datum)
  | field (name : Bytes)
deriving DecidableEq, Repr

/-- A step of the reader. -/
inductive Step where
  /-- Two things have to be equal, or else the message is the error. -/
  | check (left right : Side) (message : Message Side)
  /-- A value is read from the expression at a position. -/
  | read (converter : Bytes) (index : Nat)
deriving DecidableEq, Repr

/-- What a file does with a constraint. -/
structure Program where
  /-- The steps of the reader. -/
  steps : List Step
  /-- The fields of the struct, each with the number of the value that is stored in it. -/
  stored : List (Bytes × Nat)
  /-- The FlatZinc text. -/
  text : Message Piece
deriving DecidableEq, Repr

/-! ## Resolving names -/

/-- What a name stands for in the reader. -/
inductive Entity where
  /-- The constraint item, a parameter. -/
  | item
  /-- The model, a parameter. -/
  | model
  /-- Something from outside of the implementation. -/
  | outside
  /-- The value that was read as the `n`-th, counted from zero. -/
  | read (n : Nat)
deriving DecidableEq, Repr

/-- The number of a value that was read. -/
def Entity.number? : Entity → Option Nat
  | read n => some n
  | _ => none

/-- The names in scope.  Those in front hide those behind them. -/
abbrev Scope := List (Bytes × Entity)

/-- Names that stand for a variant wherever they are bound, so no variable can have them. -/
def variants : List Bytes := [utf8 "Ok", utf8 "Err", utf8 "Some", utf8 "None"]

/-- The types and traits that a predicate's file names and does not import. -/
def standardTypes : List Bytes := [utf8 "String", utf8 "Result", utf8 "From", utf8 "TryFrom"]

/-- What is put in the place of the operands of a text, if all of them can be resolved. -/
def Message.resolve? {α β : Type} (resolve? : α → Option β) (m : Message α) :
    Option (Message β) :=
  (m.operands.mapM resolve?).map fun operands => ⟨m.template, operands⟩

/-- A variable can be bound to what a converter reads, if the parameters and the converter are not
hidden and the name is no keyword. -/
def Scope.Serves (scope : Scope) (keywords : List Bytes) (name converter : Bytes) : Prop :=
  scope.lookup (utf8 "item") = some .item ∧ scope.lookup (utf8 "model") = some .model ∧
    scope.lookup converter = some .outside ∧ name ∉ keywords ∧ name ∉ variants

instance (scope : Scope) (keywords : List Bytes) (name converter : Bytes) :
    Decidable (scope.Serves keywords name converter) :=
  inferInstanceAs (Decidable (_ ∧ _))

namespace Code

variable (c : Code)

/-- The value of a constant. -/
def constant? (name : Bytes) : Option Datum := (c.constants.lookup name).bind Datum.ofText?

/-- An operand of a check. -/
def side? (scope : Scope) : Operand → Option Side
  | .constant name => (c.constant? name).map .known
  | .id => if scope.lookup (utf8 "item") = some .item then some .id else none
  | .count => if scope.lookup (utf8 "item") = some .item then some .count else none
  | .field _ => none

/-- An operand of the FlatZinc text. -/
def piece? : Operand → Option Piece
  | .constant name => (c.constant? name).map .known
  | .field name => if name ∈ c.fields.map Prod.fst then some (.field name) else none
  | _ => none

/-- What is in scope where the reader begins. -/
def scope : Scope :=
  [(utf8 "item", .item), (utf8 "model", .model)] ++ (utf8 "Ok" :: c.imports).map (·, .outside)

/-- The steps of statements, and the scope behind them.  Values are numbered from `n` on. -/
def steps? (keywords : List Bytes) : Nat → Scope → List Statement → Option (List Step × Scope)
  | _, scope, [] => some ([], scope)
  | n, scope, .ensure left right message :: rest => do
    let left ← c.side? scope left
    let right ← c.side? scope right
    let message ← message.resolve? (c.side? scope)
    let (steps, last) ← steps? keywords n scope rest
    return (.check left right message :: steps, last)
  | n, scope, .bind b :: rest =>
    if scope.Serves keywords b.name b.converter then do
      let (steps, last) ← steps? keywords (n + 1) ((b.name, .read n) :: scope) rest
      return (.read b.converter b.index :: steps, last)
    else none

/-- The fields with what is stored in them, if the constructor is called with these values. -/
def stored? (numbers : List Nat) : Option (List (Bytes × Nat)) :=
  if c.builder.params.length = numbers.length ∧ c.builder.literal.Perm (c.fields.map Prod.fst) then
    (c.fields.map Prod.fst).mapM fun field =>
      ((c.builder.params.zip numbers).lookup field).map (field, ·)
  else none

/-- Declarations do not clash: the struct is called unlike the types that the file takes from
elsewhere, its fields are distinct, and so are the members of its implementation and the parameters
of the constructor, which are variables. -/
def IsConsistent (keywords : List Bytes) : Prop :=
  c.type ∉ keywords ∧ c.type ∉ standardTypes ∧ c.type ∉ c.imports ∧
    (∀ field ∈ c.fields, c.type ∉ identifiers field.2) ∧
    (c.fields.map Prod.fst).Nodup ∧ c.members.Nodup ∧ c.builder.params.Nodup ∧
    ∀ name ∈ c.builder.params, name ∉ keywords ∧ name ∉ variants

instance (keywords : List Bytes) : Decidable (c.IsConsistent keywords) :=
  inferInstanceAs (Decidable (_ ∧ _))

/-- The program of a file in a language with the given keywords. -/
def program? (keywords : List Bytes) : Option Program :=
  if c.IsConsistent keywords then do
    let (steps, scope) ← c.steps? keywords 0 c.scope c.reader.statements
    if scope.lookup (utf8 "Ok") = some .outside then do
      let numbers ← c.reader.passed.mapM fun name => (scope.lookup name).bind Entity.number?
      let stored ← c.stored? numbers
      let text ← c.text.resolve? c.piece?
      return ⟨steps, stored, text⟩
    else none
  else none

end Code

/-! ## Running -/

/-- A constraint item, with expressions of any kind. -/
structure Item (E : Type) where
  id : Bytes
  exprs : List E

/-- How reading ends without a constraint. -/
inductive Halt where
  /-- The item is refused with a message. -/
  | refused (message : Bytes)
  /-- The program is aborted. -/
  | panicked
deriving DecidableEq, Repr

/-- What the reader and the converters do: they change the model, and have a result or halt. -/
abbrev Action (M α : Type) := ExceptT Halt (StateM M) α

/-- The texts with others put between them. -/
def filled : List Bytes → List Bytes → Bytes
  | text :: texts, x :: xs => text ++ x ++ filled texts xs
  | texts, _ => texts.flatten

/-- A message with its operands shown. -/
def Message.fill {α : Type} (shown : α → Bytes) (m : Message α) : Bytes :=
  filled m.template (m.operands.map shown)

section

variable {E V M : Type} (convert : Bytes → E → Action M V) (item : Item E)

/-- What a check looks at in an item. -/
def Side.value : Side → Datum
  | known d => d
  | id => .text item.id
  | count => .number item.exprs.length

/-- A part of the FlatZinc text of a struct with these fields. -/
def Piece.shown (write : V → Bytes) (stored : List (Bytes × V)) : Piece → Bytes
  | known d => d.shown
  | field name => ((stored.lookup name).map write).getD []

/-- A step, after which one more value may have been read. -/
def Step.run (values : List V) : Step → Action M (List V)
  | check left right message =>
    if left.value item = right.value item then pure values
    else throw (.refused (message.fill fun side => (side.value item).shown))
  | read converter index =>
    match item.exprs[index]? with
    | some e => do
      let v ← convert converter e
      return values ++ [v]
    | none => throw .panicked

namespace Program

variable (program : Program)

/-- Read an item: the fields of the struct, with the values stored in them. -/
def load : Action M (List (Bytes × V)) := do
  let values ← program.steps.foldlM (Step.run convert item) []
  return program.stored.filterMap fun (field, n) => values[n]?.map (field, ·)

/-- The FlatZinc text of a struct with these fields. -/
def print (write : V → Bytes) (stored : List (Bytes × V)) : Bytes :=
  program.text.fill (Piece.shown write stored)

end Program

end

end ZincBind

import ZincBind.Proofs.Emit.EmittedCode
import ZincBind.Proofs.Emit.Program

/-!
# ZincBind.Proofs.Emit.Names

Which declarations give a file with a program.  An argument gives its name to a variable of the
reader, to a parameter of the constructor, to a field and to an accessor, and the predicate gives
one to the struct; all these scopes have names of the file's own.  The file has a program exactly if
the declaration leaves alone those that are needed (`Predicate.SparesNames`):

* `steps?_bindings` — one scope after another, a list of arguments can be bound;
* `program?_code`, `sparesNames_of_program?` — the program, and that there is no other way to get
  one.
-/

namespace ZincBind

open Bytes

/-! ## Declarations that leave the names of their file alone -/

/-- A declaration leaves alone the names that its file has a use for: those of its arguments are
distinct, no keywords, and none of the members; an argument is called like no parameter of the
reader and no converter that a later argument needs; and the struct is called unlike all types of
the file. -/
structure Predicate.SparesNames (p : Predicate) (keywords : List Bytes) : Prop where
  distinct : (p.args.map Arg.name).Nodup
  variable_names : ∀ a ∈ p.args, a.name ∉ keywords ∧ a.name ∉ variants
  members : ∀ a ∈ p.args,
    a.name ∉ [utf8 "NAME", utf8 "NB_ARGS", utf8 "new", utf8 "try_from_item"]
  unhidden : p.args.Pairwise fun a b => a.name ∉ [utf8 "item", utf8 "model", b.type.converter]
  type_name : p.typeName ∉ keywords ∧ p.typeName ∉ standardTypes ∧
    p.typeName ∉ [utf8 "ConstraintItem", utf8 "Fzn", utf8 "Constraint", utf8 "Model"]
  type_names : ∀ a ∈ p.args, p.typeName ∉ identifiers a.type.target

namespace PredicateFile

/-- The checks of the reader: the name of the item, and the number of its expressions. -/
def checkSteps (p : Predicate) : List Step :=
  [.check .id (.known (.text p.name))
    ⟨[utf8 "'", utf8 "' expected but received '", utf8 "'"], [.known (.text p.name), .id]⟩,
   .check .count (.known (.number p.arity))
    ⟨[[], utf8 " args expected but received ", []], [.known (.number p.arity), .count]⟩]

/-- The steps that read arguments, counted from `n` on. -/
def readSteps (n : Nat) (args : List Arg) : List Step :=
  (args.zipIdx n).map fun (a, i) => .read a.type.converter i

end PredicateFile

open PredicateFile

/-- The program of a predicate's file. -/
def Predicate.program (p : Predicate) : Program where
  steps := checkSteps p ++ readSteps 0 p.args
  stored := p.args.zipIdx.map fun (a, i) => (a.name, i)
  text :=
    { template := (textOf p).template
      operands := .known (.text p.name) :: p.args.map fun a => .field a.name }

/-! ## Scopes -/

/-- A binding hides its own name and no other. -/
theorem lookup_read_cons_iff {scope : Scope} {bound name : Bytes} {n : Nat} {entity : Entity}
    (h : entity ≠ .read n) :
    List.lookup name ((bound, .read n) :: scope) = some entity ↔
      bound ≠ name ∧ scope.lookup name = some entity := by
  rw [List.lookup_cons]
  by_cases heq : name = bound
  · simp [heq, h.symm]
  · simp [Ne.symm heq, beq_false_of_ne heq]

/-- What can be bound after a binding could be bound before it, unless it needs what is hidden. -/
theorem Scope.serves_cons_iff {scope : Scope} {keywords : List Bytes} {bound : Bytes} {n : Nat}
    {name converter : Bytes} :
    Scope.Serves ((bound, .read n) :: scope) keywords name converter ↔
      bound ∉ [utf8 "item", utf8 "model", converter] ∧ scope.Serves keywords name converter := by
  simp only [Scope.Serves, lookup_read_cons_iff (Entity.noConfusion : Entity.item ≠ .read n),
    lookup_read_cons_iff (Entity.noConfusion : Entity.model ≠ .read n),
    lookup_read_cons_iff (Entity.noConfusion : Entity.outside ≠ .read n), List.mem_cons,
    List.not_mem_nil, or_false, not_or, ← ne_eq]
  constructor
  · rintro ⟨⟨hi, hitem⟩, ⟨hm, hmodel⟩, ⟨hc, hconverter⟩, hname⟩
    exact ⟨⟨hi, hm, hc⟩, hitem, hmodel, hconverter, hname⟩
  · rintro ⟨⟨hi, hm, hc⟩, hitem, hmodel, hconverter, hname⟩
    exact ⟨⟨hi, hitem⟩, ⟨hm, hmodel⟩, ⟨hc, hconverter⟩, hname⟩

/-- **Bindings**: a list of arguments can be bound if each of them could be bound alone, and none
hides what a later one needs. -/
theorem steps?_bindings {c : Code} {keywords : List Bytes} {args : List Arg} {n : Nat}
    {scope : Scope} {r : List Step × Scope} :
    c.steps? keywords n scope
        ((args.zipIdx n).map fun (a, i) => .bind ⟨a.name, a.type.converter, i⟩) = some r ↔
      (∀ a ∈ args, scope.Serves keywords a.name a.type.converter) ∧
        args.Pairwise (fun a b => a.name ∉ [utf8 "item", utf8 "model", b.type.converter]) ∧
        r = (readSteps n args,
          ((args.zipIdx n).map fun (a, i) => (a.name, Entity.read i)).reverse ++ scope) := by
  induction args generalizing n scope r with
  | nil => simp [Code.steps?, readSteps, eq_comm]
  | cons a as ih =>
      rw [List.zipIdx_cons, List.map_cons, Code.steps?, List.forall_mem_cons, List.pairwise_cons]
      by_cases ha : scope.Serves keywords a.name a.type.converter
      · rw [if_pos ha]
        simp only [Option.bind_eq_bind, Option.bind_eq_some_iff, Prod.exists, ih,
          Scope.serves_cons_iff, Option.pure_def, Option.some.injEq, forall_and, ha, true_and]
        constructor
        · rintro ⟨steps, last, ⟨⟨hunhidden, hserves⟩, hlater, hr⟩, rfl⟩
          obtain ⟨rfl, rfl⟩ := Prod.mk.inj hr
          refine ⟨hserves, ⟨hunhidden, hlater⟩, ?_⟩
          simp [readSteps]
        · rintro ⟨hserves, ⟨hunhidden, hlater⟩, rfl⟩
          refine ⟨_, _, ⟨⟨hunhidden, hserves⟩, hlater, rfl⟩, ?_⟩
          simp [readSteps]
      · rw [if_neg ha]
        simp [ha]

/-- What is stored under a name that is stored once. -/
theorem lookup_of_mem {β : Type} {entries : List (Bytes × β)} (h : (entries.map Prod.fst).Nodup)
    {name : Bytes} {value : β} (hmem : (name, value) ∈ entries) :
    entries.lookup name = some value := by
  obtain ⟨before, after, rfl⟩ := List.append_of_mem hmem
  refine List.lookup_eq_some_iff.2 ⟨before, after, rfl, fun entry hentry => ?_⟩
  rw [bne_iff_ne]
  rintro rfl
  rw [List.map_append, List.map_cons, List.nodup_append] at h
  exact h.2.2 _ (List.mem_map_of_mem hentry) _ List.mem_cons_self rfl

theorem lookup_of_not_mem {β : Type} {entries : List (Bytes × β)} {name : Bytes}
    (h : name ∉ entries.map Prod.fst) : entries.lookup name = none := by
  refine List.lookup_eq_none_iff.2 fun entry hentry => ?_
  rw [bne_iff_ne]
  rintro rfl
  exact h (List.mem_map_of_mem hentry)

theorem lookup_map_mk {β : Type} {names : List Bytes} {name : Bytes} (h : name ∈ names)
    (value : β) : (names.map (·, value)).lookup name = some value := by
  induction names with
  | nil => simp at h
  | cons other names ih =>
      rw [List.map_cons, List.lookup_cons]
      by_cases heq : name = other
      · simp [heq]
      · rw [beq_false_of_ne heq]
        exact ih ((List.mem_cons.1 h).resolve_left heq)

/-! ## The names of a file -/

section

variable {o : Options} {p : Predicate} (hp : p.IsDeclarable)
include hp

theorem constant?_name : (p.code o).constant? (utf8 "NAME") = some (.text p.name) := by
  have hplain : (utf8 "\"\\").all (!p.name.contains ·) = true := by
    have hmarks : (utf8 "\"\\").all (!Identifier.isWord ·) = true := by decide
    refine List.all_eq_true.2 fun b hb => ?_
    have hword : Identifier.isWord b = false := by simpa using List.all_eq_true.1 hmarks b hb
    simpa using hp.name.not_mem hword
  have hlookup : (p.code o).constants.lookup (utf8 "NAME") =
      some (utf8 "\"" ++ (p.name ++ utf8 "\"")) := by
    rw [← List.append_assoc]
    rfl
  have hnumeral : numeral? (utf8 "\"" ++ (p.name ++ utf8 "\"")) = none := rfl
  rw [Code.constant?, hlookup, Option.bind_some, Datum.ofText?, hnumeral, Datum.literal?,
    between?_append, Option.filter_some, if_pos hplain]
  rfl

omit hp in
theorem constant?_arity : (p.code o).constant? (utf8 "NB_ARGS") = some (.number p.arity) := by
  have hlookup : (p.code o).constants.lookup (utf8 "NB_ARGS") = some (decimal p.arity) := rfl
  rw [Code.constant?, hlookup, Option.bind_some, Datum.ofText?, numeral?_decimal]
  rfl

/-- The checks stand before anything is hidden. -/
theorem steps?_checks (keywords : List Bytes) (rest : List Statement) :
    (p.code o).steps? keywords 0 (p.code o).scope (checks ++ rest) =
      ((p.code o).steps? keywords 0 (p.code o).scope rest).map fun r =>
        (checkSteps p ++ r.1, r.2) := by
  have hitem : (p.code o).scope.lookup (utf8 "item") = some .item := rfl
  simp only [checks, List.cons_append, List.nil_append, Code.steps?, Code.side?, hitem, if_true,
    constant?_name hp, constant?_arity, Message.resolve?, List.mapM_cons, List.mapM_nil,
    Option.map_some, Option.bind_eq_bind, Option.bind_some, Option.pure_def]
  cases (p.code o).steps? keywords 0 (p.code o).scope rest with
  | none => rfl
  | some r => rfl

/-- Where the reader begins, everything is in scope that an argument needs. -/
theorem serves_scope_iff {keywords : List Bytes} {a : Arg} (ha : a ∈ p.args) :
    (p.code o).scope.Serves keywords a.name a.type.converter ↔
      a.name ∉ keywords ∧ a.name ∉ variants := by
  have hitem : (p.code o).scope.lookup (utf8 "item") = some .item := rfl
  have hmodel : (p.code o).scope.lookup (utf8 "model") = some .model := rfl
  have hconverter : (p.code o).scope.lookup a.type.converter = some .outside := by
    have hparams : ∀ t ∈ ArgType.registry,
        t.converter ∉ [(utf8 "item", Entity.item), (utf8 "model", Entity.model)].map Prod.fst := by
      decide
    obtain ⟨path, hpath, hsegment⟩ := Imports.exists_import_of_mem hp.type_mem o.crate ha
      ((Imports.mem_outsideNames_iff (hp.type_mem a ha)).2 (Or.inl rfl))
    have himport : a.type.converter ∈ (p.code o).imports :=
      List.mem_map.2 ⟨path, hpath, hsegment⟩
    rw [Code.scope, List.lookup_append, lookup_of_not_mem (hparams a.type (hp.type_mem a ha)),
      lookup_map_mk (List.mem_cons_of_mem _ himport), Option.none_or]
  simp only [Scope.Serves, hitem, hmodel, hconverter, true_and]

/-- The scope behind all bindings. -/
def lastScope (o : Options) (p : Predicate) : Scope :=
  (p.args.zipIdx.map fun (a, i) => (a.name, Entity.read i)).reverse ++ (p.code o).scope

theorem steps?_reader {keywords : List Bytes} {r : List Step × Scope} :
    (p.code o).steps? keywords 0 (p.code o).scope (readerOf p).statements = some r ↔
      (∀ a ∈ p.args, a.name ∉ keywords ∧ a.name ∉ variants) ∧
        p.args.Pairwise (fun a b => a.name ∉ [utf8 "item", utf8 "model", b.type.converter]) ∧
        r = (p.program.steps, lastScope o p) := by
  have hbindings : (bindingsOf p.args).map Statement.bind =
      p.args.zipIdx.map fun (a, i) => .bind ⟨a.name, a.type.converter, i⟩ := by
    rw [bindingsOf, List.map_map]
    rfl
  have hserves : (∀ a ∈ p.args, (p.code o).scope.Serves keywords a.name a.type.converter) ↔
      ∀ a ∈ p.args, a.name ∉ keywords ∧ a.name ∉ variants :=
    forall₂_congr fun _ ha => serves_scope_iff hp ha
  rw [readerOf, steps?_checks hp, hbindings, Option.map_eq_some_iff]
  simp only [steps?_bindings, hserves]
  constructor
  · rintro ⟨_, ⟨hnames, hunhidden, rfl⟩, rfl⟩
    exact ⟨hnames, hunhidden, rfl⟩
  · rintro ⟨hnames, hunhidden, rfl⟩
    exact ⟨_, ⟨hnames, hunhidden, rfl⟩, rfl⟩

theorem isConsistent_code_iff {keywords : List Bytes} :
    (p.code o).IsConsistent keywords ↔
      (p.typeName ∉ keywords ∧ p.typeName ∉ standardTypes ∧
        p.typeName ∉ [utf8 "ConstraintItem", utf8 "Fzn", utf8 "Constraint", utf8 "Model"]) ∧
      (∀ a ∈ p.args, p.typeName ∉ identifiers a.type.target) ∧
      (p.args.map Arg.name).Nodup ∧
      (∀ a ∈ p.args, a.name ∉ [utf8 "NAME", utf8 "NB_ARGS", utf8 "new", utf8 "try_from_item"]) ∧
      ∀ a ∈ p.args, a.name ∉ keywords ∧ a.name ∉ variants := by
  have hfields : (p.code o).fields.map Prod.fst = p.args.map Arg.name := by
    simp [Predicate.code]
  have htypes : (∀ field ∈ (p.code o).fields, (p.code o).type ∉ identifiers field.2) ↔
      ∀ a ∈ p.args, p.typeName ∉ identifiers a.type.target := List.forall_mem_map
  have hparams : (∀ name ∈ p.args.map Arg.name, name ∉ keywords ∧ name ∉ variants) ↔
      ∀ a ∈ p.args, a.name ∉ keywords ∧ a.name ∉ variants := List.forall_mem_map
  have himports : (p.code o).type ∉ (p.code o).imports ↔
      p.typeName ∉ [utf8 "ConstraintItem", utf8 "Fzn", utf8 "Constraint", utf8 "Model"] ∧
        ∀ a ∈ p.args, p.typeName ∉ a.outsideNames := by
    rw [Predicate.code, mem_lastSegments_iff hp, not_or]
    simp only [not_exists, not_and]
  -- what an argument takes from elsewhere is its converter or stands in its type
  have houtside : (∀ a ∈ p.args, p.typeName ∉ identifiers a.type.target) →
      ∀ a ∈ p.args, p.typeName ∉ a.outsideNames := by
    intro htarget a ha hmem
    cases List.mem_cons.1 hmem with
    | inl hconverter => exact typeName_ne_converter hp ha hconverter
    | inr hidentifier => exact htarget a ha (List.mem_filter.1 hidentifier).1
  have hmembers : (p.code o).members.Nodup ↔ (p.args.map Arg.name).Nodup ∧ ∀ a ∈ p.args,
      a.name ∉ [utf8 "NAME", utf8 "NB_ARGS", utf8 "new", utf8 "try_from_item"] :=
    nodup_members_iff
  unfold Code.IsConsistent
  rw [hfields, htypes, himports, hmembers]
  constructor
  · rintro ⟨hkeyword, hstandard, ⟨hfixed, -⟩, htarget, hdistinct, ⟨-, hmember⟩, -, hname⟩
    exact ⟨⟨hkeyword, hstandard, hfixed⟩, htarget, hdistinct, hmember, hparams.1 hname⟩
  · rintro ⟨⟨hkeyword, hstandard, hfixed⟩, htarget, hdistinct, hmember, hname⟩
    exact ⟨hkeyword, hstandard, ⟨hfixed, houtside htarget⟩, htarget, hdistinct,
      ⟨hdistinct, hmember⟩, hdistinct, hparams.2 hname⟩

omit hp in
theorem map_name_eq (args : List Arg) :
    args.map Arg.name = args.zipIdx.map fun x => x.1.name := by
  have hfst := congrArg (List.map Arg.name) (List.zipIdx_map_fst 0 args)
  rw [List.map_map] at hfst
  exact hfst.symm

omit hp in
/-- The names of arguments are bound once, and each is found with its number. -/
theorem mapM_lastScope (hdistinct : (p.args.map Arg.name).Nodup) :
    (p.args.map Arg.name).mapM (fun name => ((lastScope o p).lookup name).bind Entity.number?) =
      some (p.args.zipIdx.map Prod.snd) := by
  have hkeys : ((p.args.zipIdx.map fun (a, i) => (a.name, Entity.read i)).reverse.map
      Prod.fst).Nodup := by
    rw [List.map_reverse, List.nodup_reverse, List.map_map]
    rwa [map_name_eq] at hdistinct
  rw [map_name_eq]
  refine Traversal.mapM_map_of_some fun x hx => ?_
  have hmem : (x.1.name, Entity.read x.2) ∈
      (p.args.zipIdx.map fun (a, i) => (a.name, Entity.read i)).reverse :=
    List.mem_reverse.2 (List.mem_map.2 ⟨x, hx, rfl⟩)
  rw [lastScope, List.lookup_append, lookup_of_mem hkeys hmem]
  rfl

omit hp in
/-- The constructor stores each of its arguments in the field of this name. -/
theorem stored?_code (hdistinct : (p.args.map Arg.name).Nodup) :
    (p.code o).stored? (p.args.zipIdx.map Prod.snd) = some p.program.stored := by
  have hfields : (p.code o).fields.map Prod.fst = p.args.map Arg.name := by
    simp [Predicate.code]
  have hpairs : (p.args.map Arg.name).zip (p.args.zipIdx.map Prod.snd) = p.program.stored := by
    rw [map_name_eq, List.zip_map']
    rfl
  have hkeys : (p.program.stored.map Prod.fst).Nodup := by
    rw [Predicate.program, List.map_map]
    rwa [map_name_eq] at hdistinct
  have hlength : (p.args.map Arg.name).length = (p.args.zipIdx.map Prod.snd).length := by simp
  rw [Code.stored?, hfields]
  refine (if_pos ⟨hlength, List.Perm.refl _⟩).trans ?_
  rw [Predicate.code, hpairs, map_name_eq]
  refine Traversal.mapM_map_of_some fun x hx => ?_
  rw [lookup_of_mem hkeys (List.mem_map.2 ⟨x, hx, rfl⟩)]
  rfl

theorem resolve?_text :
    (p.code o).text.resolve? (p.code o).piece? = some p.program.text := by
  have hfields : (p.args.map fun a => Operand.field a.name).mapM (p.code o).piece? =
      some (p.args.map fun a => Piece.field a.name) := by
    refine Traversal.mapM_map_of_some fun a ha => if_pos ?_
    exact List.mem_map.2 ⟨(a.name, a.type.target), List.mem_map_of_mem ha, rfl⟩
  have hname : (p.code o).piece? (.constant (utf8 "NAME")) = some (.known (.text p.name)) := by
    rw [Code.piece?, constant?_name hp]
    rfl
  have hoperands : (p.code o).text.operands =
      .constant (utf8 "NAME") :: p.args.map fun a => Operand.field a.name := rfl
  rw [Message.resolve?, hoperands, List.mapM_cons, hname, hfields]
  rfl

/-- **Programs**: the file of a declaration that spares its names has a program. -/
theorem program?_code {keywords : List Bytes} (h : p.SparesNames keywords) :
    (p.code o).program? keywords = some p.program := by
  have hconsistent : (p.code o).IsConsistent keywords :=
    (isConsistent_code_iff hp).2
      ⟨h.type_name, h.type_names, h.distinct, h.members, h.variable_names⟩
  have hsteps : (p.code o).steps? keywords 0 (p.code o).scope (p.code o).reader.statements =
      some (p.program.steps, lastScope o p) :=
    (steps?_reader hp).2 ⟨h.variable_names, h.unhidden, rfl⟩
  have hok : (lastScope o p).lookup (utf8 "Ok") = some .outside := by
    have hnames : utf8 "Ok" ∉ (p.args.zipIdx.map fun (a, i) => (a.name, Entity.read i)).reverse.map
        Prod.fst := by
      rw [List.map_reverse, List.mem_reverse, List.map_map]
      have hargs : utf8 "Ok" ∉ p.args.map Arg.name := by
        rw [List.mem_map]
        rintro ⟨a, ha, hname⟩
        exact (h.variable_names a ha).2 (hname ▸ List.mem_cons_self)
      rwa [map_name_eq] at hargs
    rw [lastScope, List.lookup_append, lookup_of_not_mem hnames]
    rfl
  have hpassed : (p.code o).reader.passed = p.args.map Arg.name := rfl
  rw [Code.program?, if_pos hconsistent, hsteps, Option.bind_eq_bind, Option.bind_some]
  simp only [hok, if_true, hpassed, mapM_lastScope h.distinct, stored?_code h.distinct,
    resolve?_text hp, Option.bind_eq_bind, Option.bind_some, Option.pure_def]

/-- **No other programs**: where the file has a program, its declaration spares its names. -/
theorem sparesNames_of_program? {keywords : List Bytes} {program : Program}
    (h : (p.code o).program? keywords = some program) : p.SparesNames keywords := by
  rw [Code.program?] at h
  by_cases hconsistent : (p.code o).IsConsistent keywords
  · rw [if_pos hconsistent, Option.bind_eq_bind, Option.bind_eq_some_iff] at h
    obtain ⟨r, hr, -⟩ := h
    obtain ⟨htype, htypes, hdistinct, hmembers, hnames⟩ :=
      (isConsistent_code_iff hp).1 hconsistent
    obtain ⟨-, hunhidden, -⟩ := (steps?_reader hp).1 hr
    exact ⟨hdistinct, hnames, hmembers, hunhidden, htype, htypes⟩
  · rw [if_neg hconsistent] at h
    contradiction

end

end ZincBind

import ZincBind.Proofs.Declaration.Camel
import ZincBind.Proofs.Emit.Blocks
import ZincBind.Proofs.Emit.ImportBlocks
import ZincBind.Proofs.Emit.Wiring

/-!
# ZincBind.Proofs.Emit.Hygiene

The names of a declaration among the names of the file.  A predicate's file has names of its own:
the items of the implementation, the parameters of the reader, and what is imported.  The names of
the arguments and the type name of the predicate are put in the same scopes as they are, so a
declaration can take a name that is in use there.  For each scope the names it must not take are
given exactly:

* `nodup_items_iff` — the items of the implementation;
* `keepsParameters_iff` — the parameters of the reader, which the last binding may hide;
* `structIsNew_iff` — the imports.

`constraint_unhygienic` is a declaration that takes one of each.
-/

namespace ZincBind

open Bytes Grammar

namespace OutputFile

variable (f : OutputFile)

/-- No binding hides a parameter of the reader from a later one. -/
def KeepsParameters : Prop :=
  f.bindings.Pairwise fun earlier _ => earlier.name ≠ utf8 "item" ∧ earlier.name ≠ utf8 "model"

/-- The names of the structs that are declared. -/
def structNames : List Bytes := readings (utf8 "pub struct ") (utf8 " \x7b") f.readLines

/-- No struct is called like something that is imported. -/
def StructIsNew : Prop := ∀ type ∈ f.structNames, type ∉ f.uses.map lastSegment

end OutputFile

/-- What holds for all elements that something stands behind. -/
theorem pairwise_left_iff {α : Type} {P : α → Prop} {xs : List α} :
    xs.Pairwise (fun x _ => P x) ↔ ∀ x ∈ xs.dropLast, P x := by
  induction xs with
  | nil => simp
  | cons x xs ih =>
      cases xs with
      | nil => simp
      | cons y ys =>
          have hhead : (∀ z ∈ y :: ys, P x) ↔ P x := by
            simp only [List.mem_cons, forall_eq_or_imp, and_iff_left_iff_imp]
            exact fun hx _ _ => hx
          rw [List.pairwise_cons, ih, hhead, List.dropLast_cons_cons, List.forall_mem_cons]

namespace PredicateFile

variable {o : Options} (ho : o.IsInline) {p : Predicate} (hp : p.IsDeclarable)
include ho hp

omit ho hp in
/-- The names of the members: those of the arguments are put among four others. -/
theorem nodup_members_iff :
    ([utf8 "NAME", utf8 "NB_ARGS", utf8 "new"] ++ p.args.map Arg.name ++
        [utf8 "try_from_item"]).Nodup ↔
      (p.args.map Arg.name).Nodup ∧ ∀ a ∈ p.args,
        a.name ∉ [utf8 "NAME", utf8 "NB_ARGS", utf8 "new", utf8 "try_from_item"] := by
  have hfixed : [utf8 "NAME", utf8 "NB_ARGS", utf8 "new", utf8 "try_from_item"].Nodup := by decide
  have hperm : ([utf8 "NAME", utf8 "NB_ARGS", utf8 "new"] ++ p.args.map Arg.name ++
      [utf8 "try_from_item"]).Perm
      (p.args.map Arg.name ++ [utf8 "NAME", utf8 "NB_ARGS", utf8 "new", utf8 "try_from_item"]) := by
    have hswap : ([utf8 "NAME", utf8 "NB_ARGS", utf8 "new"] ++ p.args.map Arg.name).Perm
        (p.args.map Arg.name ++ [utf8 "NAME", utf8 "NB_ARGS", utf8 "new"]) := List.perm_append_comm
    simpa using hswap.append_right [utf8 "try_from_item"]
  rw [hperm.nodup_iff, List.nodup_append, List.forall_mem_map]
  constructor
  · rintro ⟨hdistinct, -, hne⟩
    exact ⟨hdistinct, fun a ha hmem => hne a ha _ hmem rfl⟩
  · rintro ⟨hdistinct, hmem⟩
    refine ⟨hdistinct, hfixed, fun a ha b hb heq => hmem a ha ?_⟩
    rwa [heq]

/-- **Items**: the names of arguments are names of accessors. -/
theorem nodup_items_iff (hdistinct : (p.args.map Arg.name).Nodup) :
    (p.emit o).items.Nodup ↔
      ∀ a ∈ p.args,
        a.name ∉ [utf8 "NAME", utf8 "NB_ARGS", utf8 "new", utf8 "try_from_item"] := by
  rw [items_emit ho hp, nodup_members_iff, and_iff_right hdistinct]

/-- **Parameters**: a binding hides a parameter if the argument is called like it. -/
theorem keepsParameters_iff :
    (p.emit o).KeepsParameters ↔
      ∀ a ∈ p.args.dropLast, a.name ≠ utf8 "item" ∧ a.name ≠ utf8 "model" := by
  have hnames : (p.emit o).bindings.map Binding.name = p.args.map Arg.name := by
    rw [bindings_emit ho hp, bindingsOf, List.map_map]
    calc p.args.zipIdx.map (Arg.name ∘ Prod.fst)
        = (p.args.zipIdx.map Prod.fst).map Arg.name := (List.map_map).symm
      _ = p.args.map Arg.name := by rw [List.zipIdx_map_fst]
  calc (p.emit o).KeepsParameters
      ↔ ((p.emit o).bindings.map Binding.name).Pairwise
          (fun name _ => name ≠ utf8 "item" ∧ name ≠ utf8 "model") := by
        rw [OutputFile.KeepsParameters, List.pairwise_map]
    _ ↔ p.args.Pairwise fun a _ => a.name ≠ utf8 "item" ∧ a.name ≠ utf8 "model" := by
      rw [hnames, List.pairwise_map]
    _ ↔ _ := pairwise_left_iff

omit ho in
/-- What imports end in: four names in every file, and for an argument what its code names. -/
theorem mem_lastSegments_iff (crate : Bytes) {id : Bytes} :
    id ∈ (Imports.groups crate p).flatten.map lastSegment ↔
      id ∈ [utf8 "ConstraintItem", utf8 "Fzn", utf8 "Constraint", utf8 "Model"] ∨
        ∃ a ∈ p.args, id ∈ a.outsideNames := by
  have hitem : lastSegment (utf8 "flatzinc::ConstraintItem") = utf8 "ConstraintItem" := by decide
  have hfixed := Imports.map_lastSegment_fixed crate
  rw [List.mem_map, List.mem_cons, ← hfixed]
  constructor
  · rintro ⟨path, hpath, rfl⟩
    obtain rfl | hlocal | huse := Imports.exists_use_of_mem hp.type_mem crate hpath
    · exact Or.inl (Or.inl hitem)
    · exact Or.inl (Or.inr (List.mem_map_of_mem hlocal))
    · exact Or.inr huse
  · rintro ((rfl | hmem) | ⟨a, ha, hmem⟩)
    · exact ⟨_, Imports.mem_flatten_groups.2 (Or.inr (Or.inl rfl)), hitem⟩
    · obtain ⟨path, hpath, rfl⟩ := List.mem_map.1 hmem
      have hlocal : path ∈ Imports.localPaths crate p.args :=
        Imports.mem_localPaths.2 (Or.inl hpath)
      exact ⟨path, Imports.mem_flatten_groups.2 (Or.inr (Or.inr hlocal)), rfl⟩
    · exact Imports.exists_import_of_mem hp.type_mem crate ha hmem

omit ho in
/-- A type name is no reader's name, which has underscores. -/
theorem typeName_ne_converter {a : Arg} (ha : a ∈ p.args) : p.typeName ≠ a.type.converter := by
  have hunderscore : ∀ t ∈ ArgType.registry, byte '_' ∈ t.converter := by decide
  intro heq
  have hcamel : byte '_' ∉ p.typeName := (Camel.camel_shape hp.name).2
  rw [heq] at hcamel
  exact hcamel (hunderscore a.type (hp.type_mem a ha))

omit ho in
theorem typeName_mem_outsideNames_iff {a : Arg} (ha : a ∈ p.args) :
    p.typeName ∈ a.outsideNames ↔
      (a.type.shared = true ∧ p.typeName = utf8 "Rc") ∨
        (a.type.importPath ≠ [] ∧ p.typeName = lastSegment a.type.importPath) := by
  rw [Imports.mem_outsideNames_iff (hp.type_mem a ha), or_iff_right (typeName_ne_converter hp ha)]

/-- **Imports**: the struct is called like something imported for every file, or for an argument. -/
theorem structIsNew_iff :
    (p.emit o).StructIsNew ↔
      p.typeName ∉ [utf8 "ConstraintItem", utf8 "Fzn", utf8 "Constraint", utf8 "Model"] ∧
        ∀ a ∈ p.args, (a.type.shared = true → p.typeName ≠ utf8 "Rc") ∧
          (a.type.importPath ≠ [] → p.typeName ≠ lastSegment a.type.importPath) := by
  have hstruct : (p.emit o).structNames = [p.typeName] := (declares_emit ho hp).struct
  have harg : ∀ a ∈ p.args, p.typeName ∉ a.outsideNames ↔
      (a.type.shared = true → p.typeName ≠ utf8 "Rc") ∧
        (a.type.importPath ≠ [] → p.typeName ≠ lastSegment a.type.importPath) := by
    intro a ha
    rw [typeName_mem_outsideNames_iff hp ha, not_or, not_and, not_and]
  rw [OutputFile.StructIsNew, hstruct, List.forall_mem_singleton, uses_emit ho hp,
    mem_lastSegments_iff hp, not_or, ← forall₂_congr harg]
  simp only [not_exists, not_and]

end PredicateFile

theorem Options.isInline_standard : Options.standard.IsInline :=
  Options.isInline_of_validate (s := Settings.standard) rfl (by decide) (by decide)

/-- **Hygiene**: which names a declaration must leave to the file, for a predicate that has been
read whose arguments have distinct names.  The items of the implementation are distinct if and only
if no argument is called like one of the four others; no binding hides a parameter of the reader
from a later one if and only if no argument before the last is called like a parameter; and the
struct is called unlike all imports if and only if its name is none of the four names that every
file imports, nor one that is imported for an argument. -/
theorem hygiene_of_each_scope {line : Bytes} {p : Predicate} (hparse : Predicate.parse line = .ok p)
    (hdistinct : (p.args.map Arg.name).Nodup) :
    ((p.emit Options.standard).items.Nodup ↔
      ∀ a ∈ p.args,
        a.name ∉ [utf8 "NAME", utf8 "NB_ARGS", utf8 "new", utf8 "try_from_item"]) ∧
    ((p.emit Options.standard).KeepsParameters ↔
      ∀ a ∈ p.args.dropLast, a.name ≠ utf8 "item" ∧ a.name ≠ utf8 "model") ∧
    ((p.emit Options.standard).StructIsNew ↔
      p.typeName ∉ [utf8 "ConstraintItem", utf8 "Fzn", utf8 "Constraint", utf8 "Model"] ∧
        ∀ a ∈ p.args, (a.type.shared = true → p.typeName ≠ utf8 "Rc") ∧
          (a.type.importPath ≠ [] → p.typeName ≠ lastSegment a.type.importPath)) := by
  have ho := Options.isInline_standard
  have hp := isDeclarable_of_parse hparse
  exact ⟨PredicateFile.nodup_items_iff ho hp hdistinct, PredicateFile.keepsParameters_iff ho hp,
    PredicateFile.structIsNew_iff ho hp⟩

/-- The predicate of `predicate rc(int: left, int: model)`. -/
def rcUnshared : Predicate :=
  ⟨utf8 "rc",
    [⟨ArgType.ofTarget "int" "Int" "types::Int" "int_from_expr", utf8 "left"⟩,
     ⟨ArgType.ofTarget "int" "Int" "types::Int" "int_from_expr", utf8 "model"⟩]⟩

/-- Its type is called `Rc`, which is not imported as no value is shared, and the last binding hides
the model, which is not needed any more. -/
theorem rcUnshared_hygienic :
    Predicate.parse (utf8 "predicate rc(int: left, int: model)") = .ok rcUnshared ∧
      (rcUnshared.emit Options.standard).items.Nodup ∧
      (rcUnshared.emit Options.standard).KeepsParameters ∧
      (rcUnshared.emit Options.standard).StructIsNew := by
  have hparse : Predicate.parse (utf8 "predicate rc(int: left, int: model)") = .ok rcUnshared := by
    rfl
  obtain ⟨hitems, hparameters, hstruct⟩ := hygiene_of_each_scope hparse (by decide)
  exact ⟨hparse, hitems.2 (by decide), hparameters.2 (by decide), hstruct.2 (by decide)⟩

/-- The predicate of `predicate constraint(int: item, int: new)`. -/
def captured : Predicate :=
  ⟨utf8 "constraint",
    [⟨ArgType.ofTarget "int" "Int" "types::Int" "int_from_expr", utf8 "item"⟩,
     ⟨ArgType.ofTarget "int" "Int" "types::Int" "int_from_expr", utf8 "new"⟩]⟩

/-- Its names are taken in every scope: there are two functions `new`, the second binding finds the
first argument where it wants the constraint item, and the struct is called like the imported
enum. -/
theorem constraint_unhygienic :
    Predicate.parse (utf8 "predicate constraint(int: item, int: new)") = .ok captured ∧
      (captured.args.map Arg.name).Nodup ∧
      ¬ (captured.emit Options.standard).items.Nodup ∧
      ¬ (captured.emit Options.standard).KeepsParameters ∧
      ¬ (captured.emit Options.standard).StructIsNew := by
  have hparse : Predicate.parse (utf8 "predicate constraint(int: item, int: new)") =
      .ok captured := by rfl
  have ho := Options.isInline_standard
  have hp := isDeclarable_of_parse hparse
  have hdistinct : (captured.args.map Arg.name).Nodup := by decide
  refine ⟨hparse, hdistinct, ?_, ?_, ?_⟩
  · rw [PredicateFile.nodup_items_iff ho hp hdistinct]
    decide
  · rw [PredicateFile.keepsParameters_iff ho hp]
    decide
  · rw [PredicateFile.structIsNew_iff ho hp]
    decide

end ZincBind

import ZincBind.Emit.PredicateFile
import ZincBind.Proofs.Declaration.RoundTrip
import ZincBind.Proofs.Text.Ordering

/-!
# ZincBind.Proofs.Emit.ImportBlocks

The imports of a predicate's file.  Whatever the argument types and the crate are, the groups have
one form (`isImportBlock_groups`), and they are determined by the set of types that occur
(`groups_eq_of_mem_iff`).

With the types of the registry, imports and use match.  The code for an argument names its
converter and the identifiers of its Rust type (`Arg.outsideNames`); each of them is what some path
ends in (`exists_import_of_mem`), and apart from the paths that every file imports, each path ends
in a name that the code for some argument has (`exists_use_of_mem`).
-/

namespace ZincBind

open Bytes Grammar

/-! ## Segments and identifiers -/

namespace Bytes

/-- The last segment of a path with double colons: what stands after the last colon. -/
def lastSegment (path : Bytes) : Bytes := (pieces (byte ':') path).getLastD []

/-- What stands before a colon does not count. -/
theorem lastSegment_append_colon (l r : Bytes) :
    lastSegment (l ++ byte ':' :: r) = lastSegment r := by
  have hne := pieces_ne_nil (byte ':') r
  rw [lastSegment, lastSegment, pieces_append_cons, List.getLastD_eq_getLast?,
    List.getLastD_eq_getLast?, List.getLast?_append_of_ne_nil _ hne]

theorem lastSegment_of_not_mem {segment : Bytes} (h : byte ':' ∉ segment) :
    lastSegment segment = segment := by
  rw [lastSegment, pieces_of_not_mem h]
  rfl

/-- The identifiers that occur in a text: its longest runs of letters, digits and underscores. -/
def identifiers (bs : Bytes) : List Bytes :=
  (bs.splitOnP fun b => !Identifier.isWord b).filter (!·.isEmpty)

end Bytes

/-- The names that the code for an argument takes from elsewhere: the function that reads it and the
identifiers of its Rust type, without the two that are in scope everywhere. -/
def Arg.outsideNames (a : Arg) : List Bytes :=
  a.type.converter ::
    (identifiers a.type.target).filter fun id => id != utf8 "Vec" && id != utf8 "bool"

namespace Imports

/-! ## Any types, any crate -/

/-- The groups of a file with the given arguments, the last of them being `locals`. -/
structure IsImportBlock (crate : Bytes) (args : List Arg) (groups : List (List Bytes))
    (locals : List Bytes) : Prop where
  of_shared : (∃ a ∈ args, a.type.shared = true) →
    groups = [[utf8 "std::rc::Rc"], [utf8 "flatzinc::ConstraintItem"], locals]
  of_not_shared : (¬ ∃ a ∈ args, a.type.shared = true) →
    groups = [[utf8 "flatzinc::ConstraintItem"], locals]
  ne_nil : locals ≠ []
  ascending : locals.Pairwise (· < ·)
  mem_iff : ∀ path, path ∈ locals ↔
    path = crate ++ utf8 "::Fzn" ∨ path = crate ++ utf8 "::constraint::Constraint" ∨
      path = crate ++ utf8 "::model::Model" ∨
      (∃ a ∈ args, path = crate ++ utf8 "::parser::" ++ a.type.converter) ∨
      ∃ a ∈ args, a.type.importPath ≠ [] ∧ path = crate ++ utf8 "::" ++ a.type.importPath

theorem mem_ofType {crate path : Bytes} {t : ArgType} :
    path ∈ ofType crate t ↔
      path = crate ++ utf8 "::parser::" ++ t.converter ∨
        t.importPath ≠ [] ∧ path = crate ++ utf8 "::" ++ t.importPath := by
  by_cases hpath : t.importPath = [] <;> simp [ofType, hpath]

theorem mem_localPaths {crate path : Bytes} {args : List Arg} :
    path ∈ localPaths crate args ↔ path ∈ fixed crate ∨ ∃ a ∈ args, path ∈ ofType crate a.type := by
  simp only [localPaths, mem_ordered, List.mem_append, List.mem_flatMap]

theorem localPaths_ne_nil (crate : Bytes) (args : List Arg) : localPaths crate args ≠ [] := by
  have hfzn : crate ++ utf8 "::Fzn" ∈ localPaths crate args := by simp [mem_localPaths, fixed]
  exact List.ne_nil_of_mem hfzn

theorem groups_eq (crate : Bytes) (p : Predicate) :
    groups crate p =
      (if p.args.any (·.type.shared) then [[utf8 "std::rc::Rc"]] else []) ++
        [[utf8 "flatzinc::ConstraintItem"], localPaths crate p.args] := by
  have hlocal : (localPaths crate p.args).isEmpty = false := by
    simpa using localPaths_ne_nil crate p.args
  by_cases hshared : p.args.any (·.type.shared) = true <;>
    simp [groups, standard, external, hshared, hlocal]

/-- **Import blocks**: the groups have the same form for all types and crates. -/
theorem isImportBlock_groups (crate : Bytes) (p : Predicate) :
    IsImportBlock crate p.args (groups crate p) (localPaths crate p.args) where
  of_shared h := by
    rw [groups_eq, if_pos (by simpa using h)]
    rfl
  of_not_shared h := by
    rw [groups_eq, if_neg (by simpa using h)]
    rfl
  ne_nil := localPaths_ne_nil crate p.args
  ascending := pairwise_ordered _
  mem_iff path := by
    simp only [mem_localPaths, fixed, List.mem_cons, List.not_mem_nil, or_false, mem_ofType,
      and_or_left, exists_or, or_assoc]

/-- **Order of arguments**: only the set of types matters. -/
theorem groups_eq_of_mem_iff (crate : Bytes) {p q : Predicate}
    (h : ∀ t, t ∈ p.args.map Arg.type ↔ t ∈ q.args.map Arg.type) :
    groups crate p = groups crate q := by
  have hexists : ∀ P : ArgType → Prop, (∃ a ∈ p.args, P a.type) ↔ ∃ a ∈ q.args, P a.type := by
    intro P
    have hmap : ∀ args : List Arg,
        (∃ a ∈ args, P a.type) ↔ ∃ t ∈ args.map Arg.type, P t := by simp
    rw [hmap, hmap]
    exact exists_congr fun t => and_congr_left' (h t)
  have hlocal : localPaths crate p.args = localPaths crate q.args := by
    refine ordered_eq_of_mem_iff fun path => ?_
    simp only [List.mem_append, List.mem_flatMap, hexists fun t => path ∈ ofType crate t]
  have hshared : p.args.any (·.type.shared) = q.args.any (·.type.shared) := by
    rw [Bool.eq_iff_iff, List.any_eq_true, List.any_eq_true, hexists fun t => t.shared = true]
  rw [groups_eq, groups_eq, hlocal, hshared]

/-! ## Types of the registry -/

theorem mem_flatten_groups {crate path : Bytes} {p : Predicate} :
    path ∈ (groups crate p).flatten ↔
      ((∃ a ∈ p.args, a.type.shared = true) ∧ path = utf8 "std::rc::Rc") ∨
        path = utf8 "flatzinc::ConstraintItem" ∨ path ∈ localPaths crate p.args := by
  have hblock := isImportBlock_groups crate p
  by_cases hshared : ∃ a ∈ p.args, a.type.shared = true
  · simp [hblock.of_shared hshared, hshared]
  · simp [hblock.of_not_shared hshared, hshared]

/-- A path ends like what stands below its crate. -/
theorem lastSegment_below (crate rest : Bytes) :
    lastSegment (crate ++ utf8 "::" ++ rest) = lastSegment rest := by
  have hpath : crate ++ utf8 "::" ++ rest = (crate ++ utf8 ":") ++ byte ':' :: rest := by
    simp only [List.append_assoc, List.append_cancel_left_eq]
    rfl
  rw [hpath, lastSegment_append_colon]

/-- The import of a reader ends in its name. -/
theorem lastSegment_converter (crate : Bytes) {t : ArgType} (ht : t ∈ ArgType.registry) :
    lastSegment (crate ++ utf8 "::parser::" ++ t.converter) = t.converter := by
  have hcolon : ∀ t ∈ ArgType.registry, byte ':' ∉ t.converter := by decide
  have hparser : utf8 "::parser::" = utf8 "::parser" ++ utf8 "::" := by decide
  rw [hparser, ← List.append_assoc, lastSegment_below, lastSegment_of_not_mem (hcolon t ht)]

/-- What the paths end in that every file imports from the crate. -/
theorem map_lastSegment_fixed (crate : Bytes) :
    (fixed crate).map lastSegment = [utf8 "Fzn", utf8 "Constraint", utf8 "Model"] := by
  have hfzn : utf8 "::Fzn" = utf8 "::" ++ utf8 "Fzn" := by decide
  have hconstraint : utf8 "::constraint::Constraint" =
      utf8 "::" ++ utf8 "constraint::Constraint" := by decide
  have hmodel : utf8 "::model::Model" = utf8 "::" ++ utf8 "model::Model" := by decide
  simp only [fixed, hfzn, hconstraint, hmodel, ← List.append_assoc, List.map_cons, List.map_nil,
    lastSegment_below]
  decide

theorem lastSegment_rc : lastSegment (utf8 "std::rc::Rc") = utf8 "Rc" := by decide

/-- The names from elsewhere that stand for a type: its reader, `Rc` if it shares its value, and the
type that it imports. -/
theorem mem_outsideNames_iff {a : Arg} (ht : a.type ∈ ArgType.registry) {id : Bytes} :
    id ∈ a.outsideNames ↔
      id = a.type.converter ∨ (a.type.shared = true ∧ id = utf8 "Rc") ∨
        (a.type.importPath ≠ [] ∧ id = lastSegment a.type.importPath) := by
  have hnames : ∀ t ∈ ArgType.registry,
      (identifiers t.target).filter (fun id => id != utf8 "Vec" && id != utf8 "bool") =
        (if t.shared = true then [utf8 "Rc"] else []) ++
          if t.importPath ≠ [] then [lastSegment t.importPath] else [] := by decide
  rw [Arg.outsideNames, hnames a.type ht, List.mem_cons, List.mem_append]
  by_cases hshared : a.type.shared = true <;> by_cases hpath : a.type.importPath = [] <;>
    simp [hshared, hpath]

section

variable {p : Predicate} (hp : ∀ a ∈ p.args, a.type ∈ ArgType.registry) (crate : Bytes)
include hp

/-- **Sufficient**: what the code for an argument names is imported. -/
theorem exists_import_of_mem {a : Arg} (ha : a ∈ p.args) {id : Bytes} (hid : id ∈ a.outsideNames) :
    ∃ path ∈ (groups crate p).flatten, lastSegment path = id := by
  have hlocal : ∀ path ∈ ofType crate a.type, path ∈ (groups crate p).flatten := by
    intro path hpath
    exact mem_flatten_groups.2 (Or.inr (Or.inr (mem_localPaths.2 (Or.inr ⟨a, ha, hpath⟩))))
  obtain rfl | ⟨hshared, rfl⟩ | ⟨himport, rfl⟩ := (mem_outsideNames_iff (hp a ha)).1 hid
  · exact ⟨_, hlocal _ (mem_ofType.2 (Or.inl rfl)), lastSegment_converter crate (hp a ha)⟩
  · exact ⟨_, mem_flatten_groups.2 (Or.inl ⟨⟨a, ha, hshared⟩, rfl⟩), lastSegment_rc⟩
  · exact ⟨_, hlocal _ (mem_ofType.2 (Or.inr ⟨himport, rfl⟩)),
      lastSegment_below crate a.type.importPath⟩

/-- **Needed**: what is imported for the arguments ends in a name that the code for one of them
has. -/
theorem exists_use_of_mem {path : Bytes} (hpath : path ∈ (groups crate p).flatten) :
    path = utf8 "flatzinc::ConstraintItem" ∨ path ∈ fixed crate ∨
      ∃ a ∈ p.args, lastSegment path ∈ a.outsideNames := by
  obtain ⟨⟨a, ha, hshared⟩, rfl⟩ | rfl | hlocal := mem_flatten_groups.1 hpath
  · refine Or.inr (Or.inr ⟨a, ha, (mem_outsideNames_iff (hp a ha)).2 (Or.inr (Or.inl ?_))⟩)
    exact ⟨hshared, lastSegment_rc⟩
  · exact Or.inl rfl
  · refine Or.inr ((mem_localPaths.1 hlocal).imp_right fun hex => ?_)
    obtain ⟨a, ha, hmem⟩ := hex
    refine ⟨a, ha, (mem_outsideNames_iff (hp a ha)).2 ?_⟩
    obtain rfl | ⟨himport, rfl⟩ := mem_ofType.1 hmem
    · exact Or.inl (lastSegment_converter crate (hp a ha))
    · exact Or.inr (Or.inr ⟨himport, lastSegment_below crate a.type.importPath⟩)

end

/-- **Imports**: for any types and any crate, the groups of a predicate's file are `Rc` if a value
is shared, then the constraint item, then the crate's own paths, which are the expected ones in
strictly ascending order; and the groups depend on the set of argument types only.  For a predicate
that has been read, every name that the code for an argument takes from elsewhere is the last
segment of an import, and every import beyond those of all files ends in such a name. -/
theorem imports_canonical_and_sufficient :
    (∀ crate (p : Predicate), ∃ locals, IsImportBlock crate p.args (groups crate p) locals) ∧
    (∀ crate (p q : Predicate), (∀ t, t ∈ p.args.map Arg.type ↔ t ∈ q.args.map Arg.type) →
      groups crate p = groups crate q) ∧
    ∀ line p, Predicate.parse line = .ok p → ∀ crate,
      (∀ a ∈ p.args, ∀ id ∈ a.outsideNames,
        ∃ path ∈ (groups crate p).flatten, lastSegment path = id) ∧
      ∀ path ∈ (groups crate p).flatten,
        path = utf8 "flatzinc::ConstraintItem" ∨
          path ∈ [crate ++ utf8 "::Fzn", crate ++ utf8 "::constraint::Constraint",
            crate ++ utf8 "::model::Model"] ∨
          ∃ a ∈ p.args, lastSegment path ∈ a.outsideNames := by
  refine ⟨fun crate p => ⟨_, isImportBlock_groups crate p⟩,
    fun crate _ _ => groups_eq_of_mem_iff crate, fun line p hparse crate => ?_⟩
  have hp := (isDeclarable_of_parse hparse).type_mem
  exact ⟨fun _ ha _ => exists_import_of_mem hp crate ha, fun _ => exists_use_of_mem hp crate⟩

/-- The predicate of `predicate p(array [int] of var int: xs, bool: b)`. -/
def mixedTypes : Predicate :=
  ⟨utf8 "p",
    [⟨ArgType.ofTarget "array [int] of var int" "Vec<Rc<VarInt>>" "var::VarInt"
        "vec_var_int_from_expr", utf8 "x"⟩,
     ⟨ArgType.ofTarget "bool" "bool" "" "bool_from_expr", utf8 "b"⟩]⟩

/-- The same with its arguments the other way round, under other names, and one of them twice. -/
def mixedTypesAgain : Predicate :=
  { mixedTypes with args := mixedTypes.args.reverse ++ mixedTypes.args.map ({ · with name := [] }) }

/-- Its imports are those of the first, and `VarInt`, inside a list of shared values, is among
them. -/
theorem mixedTypes_imports :
    groups (utf8 "c") mixedTypesAgain = groups (utf8 "c") mixedTypes ∧
      Predicate.parse (utf8 "predicate p(array [int] of var int: xs, bool: b)") = .ok mixedTypes ∧
      (∃ path ∈ (groups (utf8 "c") mixedTypes).flatten, lastSegment path = utf8 "VarInt") ∧
      ∃ a ∈ mixedTypes.args, lastSegment (utf8 "c::parser::bool_from_expr") ∈ a.outsideNames := by
  obtain ⟨-, hset, hread⟩ := imports_canonical_and_sufficient
  have hparse : Predicate.parse (utf8 "predicate p(array [int] of var int: xs, bool: b)") =
      .ok mixedTypes := by rfl
  obtain ⟨hsufficient, hneeded⟩ := hread _ _ hparse (utf8 "c")
  refine ⟨hset _ _ _ ?_, hparse, ?_, ?_⟩
  · intro t
    simp +contextual [mixedTypesAgain, mixedTypes, or_comm]
  · exact hsufficient _ List.mem_cons_self (utf8 "VarInt") (by decide)
  · have hpath : utf8 "c::parser::bool_from_expr" ∈ (groups (utf8 "c") mixedTypes).flatten := by
      decide
    have hother : utf8 "c::parser::bool_from_expr" ≠ utf8 "flatzinc::ConstraintItem" ∧
        utf8 "c::parser::bool_from_expr" ∉ [utf8 "c" ++ utf8 "::Fzn",
          utf8 "c" ++ utf8 "::constraint::Constraint", utf8 "c" ++ utf8 "::model::Model"] := by
      decide
    exact ((hneeded _ hpath).resolve_left hother.1).resolve_left hother.2

end Imports

end ZincBind

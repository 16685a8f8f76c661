import Mathlib.Data.List.Nodup
import ZincBind.Emit.ModuleFiles
import ZincBind.Proofs.Declaration.Grammar
import ZincBind.Proofs.Files.Paths

/-!
# ZincBind.Proofs.Emit.UnitPaths

The paths of generated files.  Cleaning leaves them alone: a predicate's file is literally
`builtins/<name>.rs` (`path_eq`), and every path is plain names with slashes between them
(`isPlaced_of_mem_generate`).  Predicates with distinct names have files of their own, but one name
takes the place of a module file: `mod` (`paths_nodup_iff`), and the two files there never say the
same (`builtins_content_ne_emit`).
-/

namespace ZincBind

open Bytes Grammar ZincBind.Path

/-- A file whose path is plain names with slashes between them. -/
def OutputFile.IsPlaced (f : OutputFile) : Prop :=
  ∃ names, names ≠ [] ∧ (∀ n ∈ names, IsPlain n) ∧ f.path = joined (utf8 "/") names

/-- A file that goes to the output directory or to its directory for predicates, under a name with
the ending of Rust files. -/
structure OutputFile.IsRustFile (f : OutputFile) (dirs : List Bytes) (stem : Bytes) : Prop where
  dirs_eq : dirs = [] ∨ dirs = [OutputFile.builtinsDir]
  isName : IsName stem
  path : f.path = joined (utf8 "/") (dirs ++ [stem ++ utf8 ".rs"])

/-! ## Paths -/

/-- The file name of a predicate's module. -/
theorem isPlain_moduleName {name : Bytes} (h : IsName name) : IsPlain (name ++ utf8 ".rs") := by
  have hext : byte '/' ∉ utf8 ".rs" := by decide
  have hlen : 4 ≤ (name ++ utf8 ".rs").length := by
    have hpos := List.length_pos_of_ne_nil h.ne_nil
    have hrs : (utf8 ".rs").length = 3 := rfl
    rw [List.length_append, hrs]
    omega
  have hshort : ∀ part : Bytes, part.length < 4 → name ++ utf8 ".rs" ≠ part := by
    intro part hpart heq
    rw [heq] at hlen
    omega
  refine ⟨⟨hshort [] (by decide), ?_⟩, hshort here (by decide), hshort up (by decide)⟩
  rw [List.mem_append, not_or]
  exact ⟨h.not_mem (by decide), hext⟩

theorem isPlain_builtinsDir : IsPlain OutputFile.builtinsDir :=
  ⟨⟨by decide, by decide⟩, by decide, by decide⟩

theorem parts_builtinsDir : (ofBytes OutputFile.builtinsDir).parts = [OutputFile.builtinsDir] := by
  decide

/-- The path of a predicate's file in two names. -/
theorem path_eq_joined {p : Predicate} (h : IsName p.name) :
    PredicateFile.path p = joined (utf8 "/") [OutputFile.builtinsDir, p.name ++ utf8 ".rs"] := by
  have hplain : ∀ n ∈ [p.name ++ utf8 ".rs"], IsPlain n := by
    intro n hn
    rw [List.mem_singleton.1 hn]
    exact isPlain_moduleName h
  have hjoin := join_joined OutputFile.builtinsDir (List.cons_ne_nil _ _) hplain
  rw [joined_singleton, parts_builtinsDir] at hjoin
  exact hjoin

/-- **Literal path**: cleaning changes nothing in the path of a predicate's file. -/
theorem path_eq {p : Predicate} (h : IsName p.name) :
    PredicateFile.path p = utf8 "builtins/" ++ p.name ++ utf8 ".rs" := by
  rw [path_eq_joined h, joined_cons_cons, joined_singleton, ← List.append_assoc]
  rfl

theorem path_builtins (ps : List Predicate) :
    (ModuleFiles.builtins ps).path = utf8 "builtins/mod.rs" := by
  have hpath : Path.join OutputFile.builtinsDir (utf8 "mod.rs") = utf8 "builtins/mod.rs" := by
    decide
  exact hpath

/-- The paths of all files in order. -/
theorem map_path_generate (o : Options) (ps : List Predicate) :
    (generate o ps).map OutputFile.path =
      [utf8 "builtins/mod.rs", utf8 "constraint.rs", utf8 "mod.rs"] ++
        ps.map PredicateFile.path := by
  rw [generate, List.map_append, List.map_map, aggregate, List.map_cons, path_builtins]
  rfl

/-- The names on the way to such a file. -/
theorem OutputFile.IsRustFile.mem_cases {f : OutputFile} {dirs : List Bytes} {stem n : Bytes}
    (h : f.IsRustFile dirs stem) (hn : n ∈ dirs ++ [stem ++ utf8 ".rs"]) :
    n = OutputFile.builtinsDir ∨ n = stem ++ utf8 ".rs" := by
  obtain hn | hn := List.mem_append.1 hn
  · obtain hdirs | hdirs := h.dirs_eq
    · rw [hdirs] at hn
      exact absurd hn List.not_mem_nil
    · rw [hdirs] at hn
      exact Or.inl (List.mem_singleton.1 hn)
  · exact Or.inr (List.mem_singleton.1 hn)

theorem OutputFile.IsRustFile.isPlain {f : OutputFile} {dirs : List Bytes} {stem : Bytes}
    (h : f.IsRustFile dirs stem) : ∀ n ∈ dirs ++ [stem ++ utf8 ".rs"], IsPlain n := by
  intro n hn
  obtain rfl | rfl := h.mem_cases hn
  · exact isPlain_builtinsDir
  · exact isPlain_moduleName h.isName

/-- The path of such a file is made of word bytes, dots and slashes. -/
theorem OutputFile.IsRustFile.not_mem_path {f : OutputFile} {dirs : List Bytes} {stem : Bytes}
    (h : f.IsRustFile dirs stem) {b : UInt8} (hword : Identifier.isWord b = false)
    (hb : b ∉ utf8 "./") : b ∉ f.path := by
  have hbuiltins : IsName OutputFile.builtinsDir := isValid_iff.1 (by decide)
  have hrs : IsName (utf8 "rs") := isValid_iff.1 (by decide)
  have hdot : utf8 "." ⊆ utf8 "./" := by decide
  have hslash : utf8 "/" ⊆ utf8 "./" := by decide
  rw [h.path]
  intro hmem
  obtain hmem | ⟨n, hn, hmem⟩ := mem_of_mem_joined hmem
  · exact hb (hslash hmem)
  · obtain rfl | rfl := h.mem_cases hn
    · exact hbuiltins.not_mem hword hmem
    · have hext : utf8 ".rs" = utf8 "." ++ utf8 "rs" := rfl
      rw [hext, List.mem_append, List.mem_append] at hmem
      obtain hmem | hmem | hmem := hmem
      · exact h.isName.not_mem hword hmem
      · exact hb (hdot hmem)
      · exact hrs.not_mem hword hmem

theorem isRustFile_emit (o : Options) {p : Predicate} (h : IsName p.name) :
    (p.emit o).IsRustFile [OutputFile.builtinsDir] p.name :=
  ⟨Or.inr rfl, h, path_eq_joined h⟩

/-- The files for the whole list have short names. -/
theorem exists_isRustFile_of_mem_aggregate {o : Options} {ps : List Predicate} {f : OutputFile}
    (hf : f ∈ aggregate o ps) : ∃ dirs stem, f.IsRustFile dirs stem ∧ stem.length ≤ 10 := by
  have hmod : IsName (utf8 "mod") := isValid_iff.1 (by decide)
  have hconstraint : IsName (utf8 "constraint") := isValid_iff.1 (by decide)
  simp only [aggregate, List.mem_cons, List.not_mem_nil, or_false] at hf
  obtain rfl | rfl | rfl := hf
  · exact ⟨[OutputFile.builtinsDir], utf8 "mod", ⟨Or.inr rfl, hmod, path_builtins ps⟩, by decide⟩
  · exact ⟨[], utf8 "constraint", ⟨Or.inl rfl, hconstraint, rfl⟩, by decide⟩
  · exact ⟨[], utf8 "mod", ⟨Or.inl rfl, hmod, rfl⟩, by decide⟩

theorem exists_isRustFile_of_mem_generate {o : Options} {ps : List Predicate}
    (hps : ∀ p ∈ ps, IsName p.name) {f : OutputFile} (hf : f ∈ generate o ps) :
    ∃ dirs stem, f.IsRustFile dirs stem := by
  cases List.mem_append.1 hf with
  | inl hf =>
      obtain ⟨dirs, stem, hfile, -⟩ := exists_isRustFile_of_mem_aggregate hf
      exact ⟨dirs, stem, hfile⟩
  | inr hf =>
      obtain ⟨p, hp, rfl⟩ := List.mem_map.1 hf
      exact ⟨_, _, isRustFile_emit o (hps p hp)⟩

theorem isPlaced_of_mem_generate {o : Options} {ps : List Predicate}
    (hps : ∀ p ∈ ps, IsName p.name) {f : OutputFile} (hf : f ∈ generate o ps) : f.IsPlaced := by
  obtain ⟨dirs, stem, hfile⟩ := exists_isRustFile_of_mem_generate hps hf
  exact ⟨dirs ++ [stem ++ utf8 ".rs"], by simp, hfile.isPlain, hfile.path⟩

/-! ## The one clash -/

/-- A predicate's file stands on a module file exactly when the predicate is called `mod`. -/
theorem path_mem_aggregate_iff {p : Predicate} (h : IsName p.name) :
    PredicateFile.path p ∈ [utf8 "builtins/mod.rs", utf8 "constraint.rs", utf8 "mod.rs"] ↔
      p.name = utf8 "mod" := by
  have hmod : utf8 "builtins/mod.rs" = utf8 "builtins/" ++ utf8 "mod" ++ utf8 ".rs" := rfl
  have hhead : ∀ path : Bytes, path.head? ≠ some (byte 'b') →
      utf8 "builtins/" ++ p.name ++ utf8 ".rs" ≠ path := by
    intro path hpath heq
    rw [← heq] at hpath
    exact hpath rfl
  simp only [path_eq h, List.mem_cons, List.not_mem_nil, or_false]
  constructor
  · intro hmem
    obtain heq | heq | heq := hmem
    · rw [hmod] at heq
      exact List.append_cancel_left (List.append_cancel_right heq)
    · exact absurd heq (hhead _ (by decide))
    · exact absurd heq (hhead _ (by decide))
  · intro hname
    exact Or.inl (by rw [hname, hmod])

/-- Predicates with distinct names have distinct files. -/
theorem nodup_map_path {ps : List Predicate} (hps : ∀ p ∈ ps, IsName p.name)
    (hnodup : (ps.map Predicate.name).Nodup) : (ps.map PredicateFile.path).Nodup := by
  have hpaths : ps.map PredicateFile.path =
      (ps.map Predicate.name).map fun n => utf8 "builtins/" ++ n ++ utf8 ".rs" := by
    rw [List.map_map]
    exact List.map_congr_left fun p hp => path_eq (hps p hp)
  have hinj : Function.Injective fun n => utf8 "builtins/" ++ n ++ utf8 ".rs" := fun _ _ h =>
    List.append_cancel_left (List.append_cancel_right h)
  rw [hpaths]
  exact hnodup.map hinj

/-- **Distinct paths**: the files of predicates with distinct names have distinct paths exactly
when no predicate is called `mod`. -/
theorem paths_nodup_iff (o : Options) {ps : List Predicate} (hps : ∀ p ∈ ps, IsName p.name)
    (hnodup : (ps.map Predicate.name).Nodup) :
    ((generate o ps).map OutputFile.path).Nodup ↔ ∀ p ∈ ps, p.name ≠ utf8 "mod" := by
  have hmodules : [utf8 "builtins/mod.rs", utf8 "constraint.rs", utf8 "mod.rs"].Nodup := by decide
  rw [map_path_generate, List.nodup_append]
  constructor
  · intro h p hp hname
    have hmem := (path_mem_aggregate_iff (hps p hp)).2 hname
    exact h.2.2 _ hmem _ (List.mem_map_of_mem hp) rfl
  · intro h
    refine ⟨hmodules, nodup_map_path hps hnodup, fun a ha b hb heq => ?_⟩
    obtain ⟨p, hp, rfl⟩ := List.mem_map.1 hb
    rw [heq] at ha
    exact h p hp ((path_mem_aggregate_iff (hps p hp)).1 ha)

/-! ## Different texts -/

theorem exists_importLines_eq (path : Bytes) (paths : List Bytes) (groups : List (List Bytes)) :
    ∃ ls, PredicateFile.importLines ((path :: paths) :: groups) =
      PredicateFile.importLine path :: ls := by
  cases groups with
  | nil => exact ⟨_, rfl⟩
  | cons g gs => exact ⟨_, rfl⟩

/-- The first group of imports is never empty. -/
theorem exists_groups_eq (crate : Bytes) (p : Predicate) :
    ∃ path paths groups, Imports.groups crate p = (path :: paths) :: groups := by
  simp only [Imports.groups, Imports.standard, Imports.external]
  split
  · exact ⟨_, _, _, rfl⟩
  · exact ⟨_, _, _, rfl⟩

/-- A predicate's file begins with an import. -/
theorem exists_lines_eq_use (o : Options) (p : Predicate) :
    ∃ l ls, PredicateFile.lines o p = (utf8 "use " ++ l) :: ls := by
  obtain ⟨path, paths, groups, hgroups⟩ := exists_groups_eq o.crate p
  obtain ⟨ls, hls⟩ := exists_importLines_eq path paths groups
  rw [PredicateFile.lines, hgroups, hls, PredicateFile.importLine, List.append_assoc (utf8 "use ")]
  simp only [List.cons_append, List.cons.injEq]
  exact ⟨_, _, rfl, rfl⟩

/-- The module of the builtins, unless empty, begins with a module, so it is never the text of a
predicate's file. -/
theorem builtins_content_ne_emit (o : Options) {ps : List Predicate} (hps : ps ≠ [])
    (p : Predicate) : (ModuleFiles.builtins ps).content ≠ (p.emit o).content := by
  obtain ⟨q, qs, rfl⟩ := List.exists_cons_of_ne_nil hps
  obtain ⟨l, ls, hlines⟩ := exists_lines_eq_use o p
  intro heq
  simp only [ModuleFiles.builtins, Predicate.emit, OutputFile.ofLines, hlines, List.map_cons,
    List.cons_append, unlines_cons, List.append_cancel_left_eq, List.nil_append, List.cons.injEq,
    true_and] at heq
  have hhead := congrArg List.head? heq
  have hm : ∀ rest, (ModuleFiles.modLine q ++ rest).head? = some (byte 'm') := fun _ => rfl
  have hu : ∀ rest, (utf8 "use " ++ l ++ rest).head? = some (byte 'u') := fun _ => rfl
  rw [hm, hu] at hhead
  exact absurd (Option.some.inj hhead) (by decide)

end ZincBind

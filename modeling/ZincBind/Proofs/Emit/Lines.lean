import ZincBind.Emit.ModuleFiles
import ZincBind.Proofs.Declaration.RoundTrip
import ZincBind.Proofs.Declaration.TypeNames
import ZincBind.Proofs.Text.Lines
import ZincBind.Settings.Basic

/-!
# ZincBind.Proofs.Emit.Lines

The lines of generated files.  Files are put together line by line, and what goes into a line
comes from declarations and settings.  None of it holds a line feed if the settings are accepted
and written on one line each (`Options.IsInline`), so cutting a file at its line feeds gives back
the lines it was made of:

* `areLines_lines`, `readLines_emit` — a predicate's file, block by block;
* `readLines_builtins`, `readLines_constraint` — the files for the whole list.
-/

namespace ZincBind

/-- The lines of a file: what stands between its line feeds, before the first and after the
last. -/
def OutputFile.readLines (f : OutputFile) : List Bytes := Bytes.pieces (byte '\n') f.content

open Bytes Grammar

theorem isLine_header : IsLine OutputFile.header := isLine_literal ⟨_, rfl, by decide⟩

theorem readLines_ofLines {path : Bytes} {ls : List Bytes} (h : AreLines ls) :
    (OutputFile.ofLines path ls).readLines = OutputFile.header :: [] :: (ls ++ [[]]) := by
  have hall : AreLines (OutputFile.header :: [] :: ls) := by simp [isLine_header, h]
  exact pieces_unlines hall

/-! ## What goes into lines -/

theorem isLine_name {name : Bytes} (h : IsName name) : IsLine name := h.not_mem (by decide)

theorem isLine_typeName {p : Predicate} (h : IsName p.name) : IsLine p.typeName := by
  intro hmem
  have hword := mem_wordBytes_of_mem_camel h hmem
  exact absurd hword (by decide)

/-- Every text of an argument type. -/
theorem isLine_type {t : ArgType} (ht : t ∈ ArgType.registry) :
    IsLine t.token ∧ IsLine t.target ∧ IsLine t.importPath ∧ IsLine t.converter := by
  have h : ∀ t ∈ ArgType.registry, byte '\n' ∉ t.token ∧ byte '\n' ∉ t.target ∧
      byte '\n' ∉ t.importPath ∧ byte '\n' ∉ t.converter := by decide
  exact h t ht

/-- Options that are written on one line each, the attribute beginning like one. -/
structure Options.IsInline (o : Options) : Prop where
  crate : IsLine o.crate
  derive : IsLine o.derive
  modelParam : IsLine o.modelParam
  opening : ∃ rest, o.derive = utf8 "#[" ++ rest

/-- No state goes on after a line feed. -/
theorem CratePath.isLine_of_acceptsFrom {st : CratePath.State} {bs : Bytes}
    (h : CratePath.acceptsFrom st bs = true) : IsLine bs := by
  have hfeed : ∀ st, CratePath.step st (byte '\n') = none := by
    intro st
    cases st <;> decide
  induction bs generalizing st with
  | nil => exact isLine_nil
  | cons b bs ih =>
      rw [CratePath.acceptsFrom] at h
      split at h
      case h_1 st' hstep =>
        have hb : byte '\n' ≠ b := by
          rintro rfl
          rw [hfeed] at hstep
          contradiction
        rw [IsLine, List.mem_cons, not_or]
        exact ⟨hb, ih h⟩
      case h_2 => contradiction

/-- Settings are accepted when each of them is. -/
theorem Settings.validateBy_eq_ok_iff {s : Settings} {readLevel : Bytes → Option LogLevel} :
    s.validateBy readLevel = .ok () ↔
      CratePath.isValid s.options.crate = true ∧ Settings.isAttribute s.options.derive = true ∧
        s.options.modelParam.isBlank = false ∧ (readLevel s.logLevel).isSome = true := by
  unfold Settings.validateBy
  cases CratePath.isValid s.options.crate <;> cases Settings.isAttribute s.options.derive <;>
    cases s.options.modelParam.isBlank <;> cases readLevel s.logLevel <;> simp

/-- The crate of accepted settings is written on one line. -/
theorem Settings.isLine_crate {s : Settings} (h : s.validate = .ok ()) : IsLine s.options.crate :=
  CratePath.isLine_of_acceptsFrom (Settings.validateBy_eq_ok_iff.1 h).1

/-- Accepted settings without line feeds are written on one line each. -/
theorem Options.isInline_of_validate {s : Settings} (h : s.validate = .ok ())
    (hderive : byte '\n' ∉ s.options.derive) (hmodel : byte '\n' ∉ s.options.modelParam) :
    s.options.IsInline := by
  obtain ⟨-, hattribute, -⟩ := Settings.validateBy_eq_ok_iff.1 h
  rw [Settings.isAttribute, Bool.and_eq_true] at hattribute
  obtain ⟨rest, hrest⟩ := List.isPrefixOf_iff_prefix.1 hattribute.1
  exact ⟨Settings.isLine_crate h, hderive, hmodel, rest, hrest.symm⟩

/-! ## Import lines -/

namespace PredicateFile

/-- Import lines are blank or import a path of one of the groups. -/
theorem mem_importLines {groups : List (List Bytes)} {l : Bytes} (h : l ∈ importLines groups) :
    l = [] ∨ ∃ g ∈ groups, ∃ path ∈ g, l = importLine path := by
  induction groups with
  | nil => simp [importLines] at h
  | cons g gs ih =>
      have hgroup : l ∈ g.map importLine → ∃ path ∈ g, l = importLine path := by
        intro hl
        obtain ⟨path, hpath, rfl⟩ := List.mem_map.1 hl
        exact ⟨path, hpath, rfl⟩
      cases gs with
      | nil => exact Or.inr ⟨g, List.mem_cons_self, hgroup h⟩
      | cons g' gs =>
          rw [importLines, List.append_assoc, List.mem_append, List.mem_append,
            List.mem_singleton] at h
          obtain hl | hl | hl := h
          · exact Or.inr ⟨g, List.mem_cons_self, hgroup hl⟩
          · exact Or.inl hl
          · refine (ih hl).imp_right fun hex => ?_
            obtain ⟨g'', hg'', hpath⟩ := hex
            exact ⟨g'', List.mem_cons_of_mem g hg'', hpath⟩

theorem areLines_ofType {crate : Bytes} (hcrate : IsLine crate) {t : ArgType}
    (ht : t ∈ ArgType.registry) : AreLines (Imports.ofType crate t) := by
  obtain ⟨-, -, himport, hconverter⟩ := isLine_type ht
  refine allLines_cons_iff.2 ⟨?_, ?_⟩
  · simp (disch := exact ⟨_, rfl, by decide⟩) only [isLine_append_iff, isLine_literal, hcrate,
      hconverter, and_self]
  · split
    · exact allLines_nil
    · simp (disch := exact ⟨_, rfl, by decide⟩) only [allLines_cons_iff, allLines_nil,
        isLine_append_iff, isLine_literal, hcrate, himport, and_self]

/-- The paths of every group. -/
theorem areLines_of_mem_groups {crate : Bytes} (hcrate : IsLine crate) {p : Predicate}
    (hp : p.IsDeclarable) {g : List Bytes} (hg : g ∈ Imports.groups crate p) : AreLines g := by
  have hgroup := (List.mem_filter.1 hg).1
  simp only [List.mem_cons, List.not_mem_nil, or_false] at hgroup
  obtain rfl | rfl | rfl := hgroup
  · rw [Imports.standard]
    split
    · simp (disch := exact ⟨_, rfl, by decide⟩) only [allLines_cons_iff, allLines_nil,
        isLine_literal, and_self]
    · exact allLines_nil
  · simp (disch := exact ⟨_, rfl, by decide⟩) only [Imports.external, allLines_cons_iff,
      allLines_nil, isLine_literal, and_self]
  · have hfixed : AreLines (Imports.fixed crate) := by
      simp (disch := exact ⟨_, rfl, by decide⟩) only [Imports.fixed, allLines_cons_iff,
        allLines_nil, isLine_append_iff, isLine_literal, hcrate, and_self]
    intro path hpath
    rw [Imports.localPaths, mem_ordered, List.mem_append, List.mem_flatMap] at hpath
    obtain hpath | ⟨a, ha, hpath⟩ := hpath
    · exact hfixed path hpath
    · exact areLines_ofType hcrate (hp.type_mem a ha) path hpath

theorem areLines_importLines {groups : List (List Bytes)} (h : ∀ g ∈ groups, AreLines g) :
    AreLines (importLines groups) := by
  intro l hl
  obtain rfl | ⟨g, hg, path, hpath, rfl⟩ := mem_importLines hl
  · exact isLine_nil
  · simp (disch := exact ⟨_, rfl, by decide⟩) only [importLine, isLine_append_iff, isLine_literal,
      h g hg path hpath, and_self]

/-! ## The blocks of a predicate's file -/

section

variable {p : Predicate} (hp : p.IsDeclarable)
include hp

theorem areLines_docLines : AreLines (docLines p) := by
  have hrender : IsLine p.render := feed_not_mem_render hp
  simp (disch := exact ⟨_, rfl, by decide⟩) only [docLines, declarationMark, allLines_cons_iff,
    allLines_nil, isLine_append_iff, isLine_literal, hrender, and_self]

theorem isLine_fields : IsLine (fields p) := by
  refine isLine_joined (isLine_literal ⟨_, rfl, by decide⟩) (allLines_map_iff.2 fun a ha => ?_)
  exact isLine_name (hp.arg_name a ha).1

theorem isLine_param {a : Arg} (ha : a ∈ p.args) : IsLine (param a) := by
  have hname := isLine_name (hp.arg_name a ha).1
  have htarget := (isLine_type (hp.type_mem a ha)).2.1
  simp (disch := exact ⟨_, rfl, by decide⟩) only [param, isLine_append_iff, isLine_literal, hname,
    htarget, and_self]

theorem areLines_structLines {derive : Bytes} (hderive : IsLine derive) :
    AreLines (structLines derive p) := by
  have hfield : AreLines (p.args.map fieldLine) := by
    refine allLines_map_iff.2 fun a ha => ?_
    have hname := isLine_name (hp.arg_name a ha).1
    have htarget := (isLine_type (hp.type_mem a ha)).2.1
    simp (disch := exact ⟨_, rfl, by decide⟩) only [fieldLine, isLine_append_iff, isLine_literal,
      hname, htarget, and_self]
  simp (disch := exact ⟨_, rfl, by decide⟩) only [structLines, allLines_append_iff,
    allLines_cons_iff, allLines_nil, isLine_append_iff, isLine_literal, hderive, hfield,
    isLine_typeName hp.name, and_self]

theorem areLines_constructorLines : AreLines (constructorLines p) := by
  have hparams : IsLine (params p) :=
    isLine_joined (isLine_literal ⟨_, rfl, by decide⟩)
      (allLines_map_iff.2 fun a ha => isLine_param hp ha)
  simp (disch := exact ⟨_, rfl, by decide⟩) only [constructorLines, allLines_cons_iff,
    allLines_nil, isLine_nil, isLine_append_iff, isLine_literal, isLine_name hp.name,
    isLine_decimal, hparams, isLine_fields hp, and_self]

theorem areLines_accessorLines : AreLines (p.args.flatMap accessorLines) := by
  refine allLines_flatMap_iff.2 fun a ha => ?_
  have hname := isLine_name (hp.arg_name a ha).1
  have htarget := (isLine_type (hp.type_mem a ha)).2.1
  simp (disch := exact ⟨_, rfl, by decide⟩) only [accessorLines, allLines_cons_iff,
    allLines_nil, isLine_nil, isLine_append_iff, isLine_literal, hname, htarget, and_self]

omit hp in
/-- The lines that read arguments are one per argument. -/
theorem mem_letLines {args : List Arg} {n : Nat} {l : Bytes} (h : l ∈ letLines n args) :
    ∃ a ∈ args, ∃ index, l = letLine a index := by
  induction args generalizing n with
  | nil => simp [letLines] at h
  | cons a as ih =>
      rw [letLines, List.mem_cons] at h
      cases h with
      | inl h => exact ⟨a, List.mem_cons_self, n, h⟩
      | inr h =>
          obtain ⟨b, hb, index, hl⟩ := ih h
          exact ⟨b, List.mem_cons_of_mem a hb, index, hl⟩

theorem areLines_readerLines {modelParam : Bytes} (hmodel : IsLine modelParam) :
    AreLines (readerLines modelParam p) := by
  have hlet : AreLines (letLines 0 p.args) := by
    intro l hl
    obtain ⟨a, ha, index, rfl⟩ := mem_letLines hl
    have hname := isLine_name (hp.arg_name a ha).1
    have hconverter := (isLine_type (hp.type_mem a ha)).2.2.2
    simp (disch := exact ⟨_, rfl, by decide⟩) only [letLine, isLine_append_iff, isLine_literal,
      hname, hconverter, isLine_decimal, and_self]
  simp (disch := exact ⟨_, rfl, by decide⟩) only [readerLines, allLines_append_iff,
    allLines_cons_iff, allLines_nil, isLine_append_iff, isLine_literal, hmodel, hlet,
    isLine_fields hp, and_self]

theorem areLines_implLines {modelParam : Bytes} (hmodel : IsLine modelParam) :
    AreLines (implLines modelParam p) := by
  simp (disch := exact ⟨_, rfl, by decide⟩) only [implLines, allLines_append_iff,
    allLines_cons_iff, allLines_nil, isLine_nil, isLine_append_iff, isLine_literal,
    isLine_typeName hp.name, areLines_constructorLines hp, areLines_accessorLines hp,
    areLines_readerLines hp hmodel, and_self]

theorem areLines_fznLines : AreLines (fznLines p) := by
  have hplaceholders : IsLine (placeholders p) :=
    isLine_joined (isLine_literal ⟨_, rfl, by decide⟩)
      (allLines_map_iff.2 fun _ _ => isLine_literal ⟨_, rfl, by decide⟩)
  have harg : AreLines (p.args.map fznLine) := by
    refine allLines_map_iff.2 fun a ha => ?_
    simp (disch := exact ⟨_, rfl, by decide⟩) only [fznLine, isLine_append_iff, isLine_literal,
      isLine_name (hp.arg_name a ha).1, and_self]
  simp (disch := exact ⟨_, rfl, by decide⟩) only [fznLines, allLines_append_iff,
    allLines_cons_iff, allLines_nil, isLine_append_iff, isLine_literal, isLine_typeName hp.name,
    hplaceholders, harg, and_self]

theorem areLines_downcastLines : AreLines (downcastLines p) := by
  simp (disch := exact ⟨_, rfl, by decide⟩) only [downcastLines, allLines_cons_iff, allLines_nil,
    isLine_nil, isLine_append_iff, isLine_literal, isLine_typeName hp.name, and_self]

theorem areLines_upcastLines : AreLines (upcastLines p) := by
  simp (disch := exact ⟨_, rfl, by decide⟩) only [upcastLines, allLines_cons_iff, allLines_nil,
    isLine_append_iff, isLine_literal, isLine_typeName hp.name, and_self]

/-- **Lines**: what a predicate's file is made of is on one line each. -/
theorem areLines_lines {o : Options} (ho : o.IsInline) : AreLines (lines o p) := by
  have himports : AreLines (importLines (Imports.groups o.crate p)) :=
    areLines_importLines fun _ hg => areLines_of_mem_groups ho.crate hp hg
  simp only [lines, allLines_append_iff, allLines_cons_iff, allLines_nil, isLine_nil, himports,
    areLines_docLines hp, areLines_structLines hp ho.derive, areLines_implLines hp ho.modelParam,
    areLines_fznLines hp, areLines_downcastLines hp, areLines_upcastLines hp, and_self]

end

end PredicateFile

/-- A predicate's file is read back as its lines, under the header and a blank line. -/
theorem readLines_emit {o : Options} (ho : o.IsInline) {p : Predicate} (hp : p.IsDeclarable) :
    (p.emit o).readLines = OutputFile.header :: [] :: (PredicateFile.lines o p ++ [[]]) :=
  readLines_ofLines (PredicateFile.areLines_lines hp ho)

/-! ## The files for the whole list -/

namespace ModuleFiles

theorem readLines_builtins {ps : List Predicate} (hps : ∀ p ∈ ps, p.IsDeclarable) :
    (builtins ps).readLines =
      [OutputFile.header, []] ++ ps.map modLine ++ [[]] ++ ps.map useLine ++ [[]] := by
  have hmod : AreLines (ps.map modLine) := by
    refine allLines_map_iff.2 fun p hp => ?_
    simp (disch := exact ⟨_, rfl, by decide⟩) only [modLine, isLine_append_iff, isLine_literal,
      isLine_name (hps p hp).name, and_self]
  have huse : AreLines (ps.map useLine) := by
    refine allLines_map_iff.2 fun p hp => ?_
    simp (disch := exact ⟨_, rfl, by decide⟩) only [useLine, isLine_append_iff, isLine_literal,
      isLine_name (hps p hp).name, isLine_typeName (hps p hp).name, and_self]
  rw [builtins, readLines_ofLines]
  · simp only [List.append_assoc, List.cons_append, List.nil_append]
  · simp only [allLines_append_iff, allLines_cons_iff, allLines_nil, isLine_nil, hmod, huse,
      and_self]

theorem readLines_constraint {o : Options} (ho : o.IsInline) {ps : List Predicate}
    (hps : ∀ p ∈ ps, p.IsDeclarable) :
    (constraint o ps).readLines =
      [OutputFile.header, [], utf8 "use " ++ o.crate ++ utf8 "::constraint::builtins::*;", [],
          o.derive, utf8 "pub enum Constraint \x7b"] ++
        ps.map variantLine ++ [utf8 "\x7d", []] := by
  have hvariant : AreLines (ps.map variantLine) := by
    refine allLines_map_iff.2 fun p hp => ?_
    simp (disch := exact ⟨_, rfl, by decide⟩) only [variantLine, isLine_append_iff,
      isLine_literal, isLine_typeName (hps p hp).name, and_self]
  rw [constraint, readLines_ofLines]
  · simp only [List.append_assoc, List.cons_append, List.nil_append]
  · simp (disch := exact ⟨_, rfl, by decide⟩) only [allLines_append_iff, allLines_cons_iff,
      allLines_nil, isLine_nil, isLine_append_iff, isLine_literal, ho.crate, ho.derive, hvariant,
      and_self]

end ModuleFiles

end ZincBind

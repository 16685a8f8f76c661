import ZincBind.Proofs.Emit.Parts

/-!
# ZincBind.Proofs.Emit.Blocks

A predicate's file read back block by block: the imports, the struct, its implementation, and the
implementation that writes FlatZinc.  A block is found by how its first line begins and ends with
the next closing brace: all lines in it are indented, and above it nothing begins like it.

* `structBlock_emit`, `implBlock_emit`, `fznBlock_emit` — the lines of each block;
* `parts_emit` — what the lines of the implementation say, in order;
* `uses_emit`, `fields_emit`, `items_emit`, `params_emit`, `accessors_emit`, `bindings_emit`, … —
  what is read off them.
-/

namespace ZincBind

open Bytes Grammar

/-! ## What a file says -/

/-- The number of placeholders in a format string. -/
def placeholderCount : Bytes → Nat
  | b :: c :: rest =>
    if b = byte '\x7b' ∧ c = byte '\x7d' then placeholderCount rest + 1
    else placeholderCount (c :: rest)
  | _ => 0

namespace OutputFile

variable (f : OutputFile)

/-- The paths that are imported. -/
def uses : List Bytes := readings (utf8 "use ") (utf8 ";") f.readLines

/-- The lines of the struct. -/
def structBlock : List Bytes := blockOf (utf8 "pub struct ") f.readLines

/-- The lines of the inherent implementation. -/
def implBlock : List Bytes := blockOf (utf8 "impl ") f.readLines

/-- The lines of the implementation that writes FlatZinc. -/
def fznBlock : List Bytes := blockOf (utf8 "impl Fzn for ") f.readLines

/-- The fields of the struct with their types. -/
def fields : List (Bytes × Bytes) :=
  f.structBlock.filterMap fun l => (between? (utf8 "    ") (utf8 ",") l).bind typed?

/-- What the lines of the inherent implementation say. -/
def parts : List Part := f.implBlock.filterMap Part.ofLine?

/-- The names of the associated items. -/
def items : List Bytes := f.parts.filterMap Part.item?

/-- The numerals of the number of arguments. -/
def arities : List Bytes := f.parts.filterMap (Part.value? (utf8 "NB_ARGS"))

/-- The parameters of the constructor with their types. -/
def params : List (Bytes × Bytes) := (f.parts.filterMap Part.params?).flatten

/-- The accessors with the types they return. -/
def accessors : List (Bytes × Bytes) := f.parts.filterMap Part.accessor?

/-- The fields that accessors return. -/
def returned : List Bytes := f.parts.filterMap Part.returned?

/-- The variables the struct is built from. -/
def literal : List Bytes := (f.parts.filterMap Part.literal?).flatten

/-- The names that are bound, in order. -/
def bindings : List Binding := f.parts.filterMap Part.toBinding?

/-- The variables the constructor is called with. -/
def call : List Bytes := (f.parts.filterMap Part.call?).flatten

/-- The format string of the FlatZinc text: it stands on the line below the macro. -/
def formatString? : Option Bytes :=
  ((f.fznBlock.dropWhile (· != utf8 "        format!("))[1]?).bind
    (between? (utf8 "            \"") (utf8 "\","))

/-- The fields that are written as FlatZinc. -/
def written : List Bytes := readings (utf8 "            self.") (utf8 ".fzn(),") f.fznBlock

end OutputFile

namespace PredicateFile

/-! ## How the lines of a block begin -/

/-- The lines above the struct. -/
def preamble (o : Options) (p : Predicate) : List Bytes :=
  OutputFile.header :: [] ::
    (importLines (Imports.groups o.crate p) ++ [] :: (docLines p ++ [o.derive]))

/-- The lines inside the inherent implementation. -/
def implBody (modelParam : Bytes) (p : Predicate) : List Bytes :=
  constructorLines p ++ p.args.flatMap accessorLines ++ [[]] ++ readerLines modelParam p

/-- The lines inside the implementation that writes FlatZinc. -/
def fznBody (p : Predicate) : List Bytes :=
  [utf8 "    fn fzn(&self) -> String \x7b", utf8 "        format!(",
   utf8 "            \"\x7b\x7d(" ++ placeholders p ++ utf8 ")\\n\",",
   utf8 "            Self::NAME,"] ++
    p.args.map fznLine ++ [utf8 "        )", utf8 "    \x7d"]

/-- The lines above the inherent implementation. -/
def upper (o : Options) (p : Predicate) : List Bytes :=
  preamble o p ++ (utf8 "pub struct " ++ (p.typeName ++ utf8 " \x7b")) ::
    (p.args.map fieldLine ++ [utf8 "\x7d", []])

/-- The lines from the implementation that writes FlatZinc on. -/
def lower (p : Predicate) : List Bytes :=
  (utf8 "impl Fzn for " ++ (p.typeName ++ utf8 " \x7b")) ::
    (fznBody p ++ utf8 "\x7d" :: [] :: (downcastLines p ++ [[]] ++ upcastLines p ++ [[]]))

/-- The lines below the imports. -/
def belowImports (o : Options) (p : Predicate) : List Bytes :=
  [] :: (docLines p ++ [o.derive]) ++
    (utf8 "pub struct " ++ (p.typeName ++ utf8 " \x7b")) ::
      (p.args.map fieldLine ++ [utf8 "\x7d", []]) ++
    (utf8 "impl " ++ (p.typeName ++ utf8 " \x7b")) ::
      (implBody o.modelParam p ++ utf8 "\x7d" :: [] :: lower p)

theorem readLines_emit_blocks {o : Options} (ho : o.IsInline) {p : Predicate}
    (hp : p.IsDeclarable) :
    (p.emit o).readLines = upper o p ++ (utf8 "impl " ++ (p.typeName ++ utf8 " \x7b")) ::
      (implBody o.modelParam p ++ utf8 "\x7d" :: [] :: lower p) := by
  simp only [readLines_emit ho hp, upper, lower, preamble, lines, structLines, implLines, implBody,
    fznLines, fznBody, List.append_assoc, List.cons_append, List.nil_append]

/-- Below the imports there are comments and an attribute. -/
theorem beginIn_docLines {o : Options} (ho : o.IsInline) (p : Predicate) :
    BeginIn (utf8 "/#") (docLines p ++ [o.derive]) := by
  obtain ⟨rest, hderive⟩ := ho.opening
  simp (disch := exact ⟨_, _, rfl, by decide, by decide⟩) only [docLines, declarationMark, hderive,
    allLines_cons_iff, allLines_append_iff, allLines_nil, beginsIn_literal, beginsIn_utf8, and_self]

theorem beginIn_importLines (groups : List (List Bytes)) :
    BeginIn (utf8 "u") (importLines groups) := by
  intro l hl
  obtain rfl | ⟨g, -, path, -, rfl⟩ := mem_importLines hl
  · exact beginsIn_nil
  · rw [importLine, List.append_assoc]
    exact beginsIn_literal ⟨_, _, rfl, by decide, by decide⟩ _

theorem beginIn_preamble {o : Options} (ho : o.IsInline) (p : Predicate) :
    BeginIn (utf8 "/#u") (preamble o p) := by
  have himports := (beginIn_importLines (Imports.groups o.crate p)).mono
    (by decide : utf8 "u" ⊆ utf8 "/#u")
  have hdoc := (beginIn_docLines ho p).mono (by decide : utf8 "/#" ⊆ utf8 "/#u")
  simp (disch := exact ⟨_, _, rfl, by decide, by decide⟩) only [preamble, OutputFile.header,
    allLines_cons_iff, allLines_append_iff, beginsIn_nil, beginsIn_utf8, himports, hdoc, and_self]

theorem beginIn_fieldLines (args : List Arg) : BeginIn (utf8 " ") (args.map fieldLine) := by
  simp (disch := exact ⟨_, _, rfl, by decide, by decide⟩) only [fieldLine, List.append_assoc,
    allLines_map_iff, beginsIn_literal, implies_true]

theorem beginIn_implBody (modelParam : Bytes) (p : Predicate) :
    BeginIn (utf8 " ") (implBody modelParam p) := by
  have hlet : BeginIn (utf8 " ") (letLines 0 p.args) := by
    intro l hl
    obtain ⟨a, -, index, rfl⟩ := mem_letLines hl
    simp only [letLine, List.append_assoc]
    exact beginsIn_literal ⟨_, _, rfl, by decide, by decide⟩ _
  simp (disch := exact ⟨_, _, rfl, by decide, by decide⟩) only [implBody, constructorLines,
    accessorLines, readerLines, List.append_assoc, allLines_cons_iff, allLines_append_iff,
    allLines_flatMap_iff, allLines_nil, beginsIn_nil, beginsIn_literal, beginsIn_utf8, hlet,
    implies_true, and_self]

theorem beginIn_fznBody (p : Predicate) : BeginIn (utf8 " ") (fznBody p) := by
  simp (disch := exact ⟨_, _, rfl, by decide, by decide⟩) only [fznBody, fznLine,
    List.append_assoc, allLines_cons_iff, allLines_append_iff, allLines_map_iff, allLines_nil,
    beginsIn_literal, beginsIn_utf8, implies_true, and_self]

theorem beginIn_lower (p : Predicate) : BeginIn (utf8 "i \x7d") (lower p) := by
  have hfzn := (beginIn_fznBody p).mono (by decide : utf8 " " ⊆ utf8 "i \x7d")
  simp (disch := exact ⟨_, _, rfl, by decide, by decide⟩) only [lower, downcastLines, upcastLines,
    List.append_assoc, allLines_cons_iff, allLines_append_iff, allLines_nil, beginsIn_nil,
    beginsIn_literal, beginsIn_utf8, hfzn, and_self]

/-- No line below the imports begins like one of them. -/
theorem beginIn_belowImports {o : Options} (ho : o.IsInline) (p : Predicate) :
    BeginIn (utf8 "/#pi \x7d") (belowImports o p) := by
  have hdoc := (beginIn_docLines ho p).mono (by decide : utf8 "/#" ⊆ utf8 "/#pi \x7d")
  have hfields := (beginIn_fieldLines p.args).mono (by decide : utf8 " " ⊆ utf8 "/#pi \x7d")
  have himpl := (beginIn_implBody o.modelParam p).mono (by decide : utf8 " " ⊆ utf8 "/#pi \x7d")
  have hlower := (beginIn_lower p).mono (by decide : utf8 "i \x7d" ⊆ utf8 "/#pi \x7d")
  simp (disch := exact ⟨_, _, rfl, by decide, by decide⟩) only [belowImports, allLines_cons_iff,
    allLines_append_iff, allLines_nil, beginsIn_nil, beginsIn_literal, beginsIn_utf8, hdoc, hfields,
    himpl, hlower, and_self]

theorem brace_not_mem {ls : List Bytes} (h : BeginIn (utf8 " ") ls) : utf8 "\x7d" ∉ ls :=
  fun hmem => (h _ hmem).ne (by decide) rfl

/-- No line above the inherent implementation begins like an implementation. -/
theorem beginIn_upper {o : Options} (ho : o.IsInline) (p : Predicate) :
    BeginIn (utf8 "/#up \x7d") (upper o p) := by
  have hpreamble := (beginIn_preamble ho p).mono (by decide : utf8 "/#u" ⊆ utf8 "/#up \x7d")
  have hfields := (beginIn_fieldLines p.args).mono (by decide : utf8 " " ⊆ utf8 "/#up \x7d")
  simp (disch := exact ⟨_, _, rfl, by decide, by decide⟩) only [upper, allLines_cons_iff,
    allLines_append_iff, allLines_nil, beginsIn_nil, beginsIn_literal, beginsIn_utf8, hpreamble,
    hfields, and_self]

/-- The line that opens the inherent implementation does not open another: the type name has no
blank. -/
theorem after?_implOpening {typeName : Bytes} (h : byte ' ' ∉ typeName) :
    after? (utf8 "impl Fzn for ") (utf8 "impl " ++ (typeName ++ utf8 " \x7b")) = none := by
  refine Option.eq_none_iff_forall_ne_some.2 fun rest hrest => ?_
  have hstart : utf8 "impl Fzn for " = utf8 "impl " ++ (utf8 "Fzn" ++ byte ' ' :: utf8 "for ") := by
    decide
  have hblank : utf8 " \x7b" = byte ' ' :: utf8 "\x7b" := rfl
  rw [after?_eq_some_iff, hstart, hblank, List.append_assoc, List.append_cancel_left_eq,
    List.append_assoc, List.cons_append] at hrest
  have hcut := cut?_append h (utf8 "\x7b")
  rw [hrest, cut?_append (by decide), Option.some.injEq, Prod.mk.injEq] at hcut
  exact literal_ne_append ⟨_, _, rfl, rfl, by decide⟩ rest hcut.2.symm

/-! ## Inside lines -/

/-- Import lines say their paths. -/
theorem readings_importLines (groups : List (List Bytes)) :
    readings (utf8 "use ") (utf8 ";") (importLines groups) = groups.flatten := by
  have hgroup (g : List Bytes) :
      (g.map importLine).filterMap (between? (utf8 "use ") (utf8 ";")) = g := by
    have hline : ∀ path ∈ g,
        between? (utf8 "use ") (utf8 ";") (importLine path) = some (id path) := by
      intro path _
      rw [importLine, List.append_assoc, between?_append, id]
    rw [filterMap_map_of_some hline, List.map_id]
  have hblank : between? (utf8 "use ") (utf8 ";") [] = none := rfl
  rw [readings]
  fun_induction importLines groups with
  | case1 => rfl
  | case2 g => rw [hgroup, List.flatten_singleton]
  | case3 g h gs ih =>
      rw [List.filterMap_append, List.filterMap_append, hgroup, ih,
        List.filterMap_cons_none hblank, List.filterMap_nil, List.append_nil]
      rfl

theorem placeholderCount_pair (rest : Bytes) :
    placeholderCount (utf8 "\x7b\x7d" ++ rest) = placeholderCount rest + 1 := by
  have hpair : utf8 "\x7b\x7d" = [byte '\x7b', byte '\x7d'] := by decide
  rw [hpair, List.cons_append, List.singleton_append, placeholderCount, if_pos ⟨rfl, rfl⟩]

theorem placeholderCount_cons {b : UInt8} (h : b ≠ byte '\x7b') (rest : Bytes) :
    placeholderCount (b :: rest) = placeholderCount rest := by
  cases rest with
  | nil => rfl
  | cons c cs => rw [placeholderCount, if_neg fun hpair => h hpair.1]

/-- A placeholder per argument. -/
theorem placeholderCount_list (args : List Arg) :
    placeholderCount (joined (utf8 ", ") (args.map fun _ => utf8 "\x7b\x7d") ++ utf8 ")\\n") =
      args.length := by
  induction args with
  | nil => rfl
  | cons a as ih =>
      cases as with
      | nil => rfl
      | cons b bs =>
          have hsep : utf8 ", " = [byte ',', byte ' '] := rfl
          simp only [List.map_cons, joined_cons_cons, List.append_assoc] at ih ⊢
          rw [placeholderCount_pair, hsep, List.cons_append, placeholderCount_cons (by decide),
            List.cons_append, placeholderCount_cons (by decide), List.nil_append, ← hsep, ih]
          rfl

/-- The format string has one more, for the name. -/
theorem placeholderCount_format (p : Predicate) :
    placeholderCount (utf8 "\x7b\x7d(" ++ placeholders p ++ utf8 ")\\n") = p.arity + 1 := by
  have hopen : utf8 "\x7b\x7d(" = utf8 "\x7b\x7d" ++ [byte '('] := by decide
  rw [hopen, List.append_assoc, List.append_assoc, placeholderCount_pair, List.singleton_append,
    placeholderCount_cons (by decide), placeholders, placeholderCount_list, Predicate.arity]

section

variable {p : Predicate} (hp : p.IsDeclarable)
include hp

/-- The argument names are read back from their list. -/
theorem listed_fields : listed (PredicateFile.fields p) = p.args.map Arg.name := by
  refine listed_joined (by simpa using hp.args_ne_nil) (List.forall_mem_map.2 fun a ha => ?_)
  have hname := (hp.arg_name a ha).1
  have hblank : byte ' ' ∉ a.name := hname.not_mem (by decide)
  exact ⟨hname.not_mem (by decide), after?_of_not_mem (by decide) hblank⟩

/-- The parameters are read back from their list. -/
theorem listed_params : listed (PredicateFile.params p) = p.args.map param := by
  have hcomma : ∀ t ∈ ArgType.registry, byte ',' ∉ utf8 ": " ++ t.target := by decide
  refine listed_joined (by simpa using hp.args_ne_nil) (List.forall_mem_map.2 fun a ha => ?_)
  have hname := (hp.arg_name a ha).1
  constructor
  · rw [param, List.append_assoc, List.mem_append, not_or]
    exact ⟨hname.not_mem (by decide), hcomma a.type (hp.type_mem a ha)⟩
  · obtain ⟨b, bs, hb⟩ := List.exists_cons_of_ne_nil hname.ne_nil
    have hblank : byte ' ' ∉ a.name := hname.not_mem (by decide)
    rw [hb, List.mem_cons, not_or] at hblank
    rw [param, hb, List.cons_append, List.cons_append]
    exact if_neg hblank.1

theorem typed?_param {a : Arg} (ha : a ∈ p.args) :
    typed? (param a) = some (a.name, a.type.target) :=
  typed?_append (hp.arg_name a ha).1 a.type.target

/-- An accessor is no constructor, also if it is called `new`. -/
theorem params?_accessor {a : Arg} (ha : a ∈ p.args) :
    (accessorParts a).filterMap Part.params? = [] := by
  have hself : ∀ t ∈ ArgType.registry, before? (utf8 ") -> Self \x7b")
      (utf8 "&self) -> &" ++ (t.target ++ utf8 " \x7b")) = none := by decide
  simp [accessorParts, Part.params?, List.filterMap_cons, hself a.type (hp.type_mem a ha)]

/-- The constructor is no accessor: its parameters have no ampersand. -/
theorem ampersand_not_mem_params : byte '&' ∉ PredicateFile.params p := by
  have htype : ∀ t ∈ ArgType.registry, byte '&' ∉ utf8 ": " ++ t.target := by decide
  intro hmem
  obtain hsep | ⟨q, hq, hmem⟩ := mem_of_mem_joined hmem
  · exact absurd hsep (by decide)
  · obtain ⟨a, ha, rfl⟩ := List.mem_map.1 hq
    rw [param, List.append_assoc, List.mem_append] at hmem
    exact hmem.elim ((hp.arg_name a ha).1.not_mem (by decide)) (htype a.type (hp.type_mem a ha))

end

/-! ## The blocks of a file -/

section

variable {o : Options} (ho : o.IsInline) {p : Predicate} (hp : p.IsDeclarable)
include ho hp

theorem structBlock_emit : (p.emit o).structBlock = p.args.map fieldLine := by
  have hbefore : ∀ l ∈ preamble o p, after? (utf8 "pub struct ") l = none :=
    fun l hl => (beginIn_preamble ho p l hl).after?_eq_none (by decide)
  rw [OutputFile.structBlock, readLines_emit_blocks ho hp, upper]
  simp only [List.append_assoc, List.cons_append, List.nil_append]
  exact blockOf_append hbefore (brace_not_mem (beginIn_fieldLines p.args)) _ _

theorem implBlock_emit : (p.emit o).implBlock = implBody o.modelParam p := by
  have hbefore : ∀ l ∈ upper o p, after? (utf8 "impl ") l = none :=
    fun l hl => (beginIn_upper ho p l hl).after?_eq_none (by decide)
  rw [OutputFile.implBlock, readLines_emit_blocks ho hp]
  exact blockOf_append hbefore (brace_not_mem (beginIn_implBody o.modelParam p)) _ _

theorem fznBlock_emit : (p.emit o).fznBlock = fznBody p := by
  have hblank : byte ' ' ∉ p.typeName := by
    intro hmem
    have hword := mem_wordBytes_of_mem_camel hp.name hmem
    exact absurd hword (by decide)
  have hbefore : ∀ l ∈ upper o p ++ (utf8 "impl " ++ (p.typeName ++ utf8 " \x7b")) ::
      (implBody o.modelParam p ++ [utf8 "\x7d", []]), after? (utf8 "impl Fzn for ") l = none := by
    simp only [List.mem_append, List.mem_cons, List.not_mem_nil, or_false]
    rintro l (hl | rfl | hl | rfl | rfl)
    · exact (beginIn_upper ho p l hl).after?_eq_none (by decide)
    · exact after?_implOpening hblank
    · exact (beginIn_implBody o.modelParam p l hl).after?_eq_none (by decide)
    · decide
    · decide
  have hblock := blockOf_append hbefore (brace_not_mem (beginIn_fznBody p))
    (p.typeName ++ utf8 " \x7b") ([] :: (downcastLines p ++ [[]] ++ upcastLines p ++ [[]]))
  rw [OutputFile.fznBlock, readLines_emit_blocks ho hp, lower]
  simpa only [List.append_assoc, List.cons_append, List.nil_append] using hblock

/-- **Parts**: what the lines of the inherent implementation say, in order. -/
theorem parts_emit : (p.emit o).parts = implParts o.modelParam p := by
  have haccessors : (p.args.flatMap accessorLines).filterMap Part.ofLine? =
      p.args.flatMap accessorParts := by
    rw [List.filterMap_flatMap]
    exact List.flatMap_congr fun a ha => filterMap_accessorLines (hp.arg_name a ha).1
  have hblank : [([] : Bytes)].filterMap Part.ofLine? = [] := by
    simp [Part.ofLine?_nil]
  rw [OutputFile.parts, implBlock_emit ho hp, implBody, implParts, List.filterMap_append,
    List.filterMap_append, List.filterMap_append, filterMap_constructorLines, haccessors, hblank,
    filterMap_readerLines _ hp, List.append_nil]

/-! ## What is read off a file -/

omit ho in
theorem typed?_fieldLine {a : Arg} (ha : a ∈ p.args) :
    (between? (utf8 "    ") (utf8 ",") (fieldLine a)).bind typed? = some (a.name, a.type.target) := by
  have hline : fieldLine a =
      utf8 "    " ++ ((a.name ++ utf8 ": " ++ a.type.target) ++ utf8 ",") := by
    simp only [fieldLine, List.append_assoc]
  rw [hline, between?_append, Option.bind_some, typed?_append (hp.arg_name a ha).1]

theorem fields_emit : (p.emit o).fields = p.args.map fun a => (a.name, a.type.target) := by
  rw [OutputFile.fields, structBlock_emit ho hp]
  exact filterMap_map_of_some fun a ha => typed?_fieldLine hp ha

/-- What is read off the parts is read off the constructor, off each accessor and off the reader. -/
theorem filterMap_parts_emit {β : Type} (read : Part → Option β) :
    (p.emit o).parts.filterMap read =
      (constructorParts p).filterMap read ++
        p.args.flatMap (fun a => (accessorParts a).filterMap read) ++
        (readerParts o.modelParam p).filterMap read := by
  rw [parts_emit ho hp, implParts, List.filterMap_append, List.filterMap_append,
    List.filterMap_flatMap]

theorem items_emit :
    (p.emit o).items = [utf8 "NAME", utf8 "NB_ARGS", utf8 "new"] ++ p.args.map Arg.name ++
      [utf8 "try_from_item"] := by
  simp [OutputFile.items, filterMap_parts_emit ho hp, constructorParts, accessorParts, readerParts,
    List.filterMap_cons, Part.item?, ← List.map_eq_flatMap, Function.comp_def]

theorem arities_emit : (p.emit o).arities = [decimal p.arity] := by
  have hname : utf8 "NAME" ≠ utf8 "NB_ARGS" := by decide
  simp [OutputFile.arities, filterMap_parts_emit ho hp, constructorParts, accessorParts,
    readerParts, List.filterMap_cons, Part.value?, hname, Function.comp_def]

theorem returned_emit : (p.emit o).returned = p.args.map Arg.name := by
  simp [OutputFile.returned, filterMap_parts_emit ho hp, constructorParts, accessorParts,
    readerParts, List.filterMap_cons, Part.returned?, ← List.map_eq_flatMap, Function.comp_def]

theorem bindings_emit : (p.emit o).bindings = bindingsOf p.args := by
  simp [OutputFile.bindings, filterMap_parts_emit ho hp, constructorParts, accessorParts,
    readerParts, List.filterMap_cons, Part.toBinding?, Function.comp_def]

theorem params_emit : (p.emit o).params = p.args.map fun a => (a.name, a.type.target) := by
  have hname : utf8 "try_from_item" ≠ utf8 "new" := by decide
  have haccessors : p.args.flatMap (fun a => (accessorParts a).filterMap Part.params?) = [] :=
    List.flatMap_eq_nil_iff.2 fun a ha => params?_accessor hp ha
  have hparams := filterMap_map_of_some fun a (ha : a ∈ p.args) => typed?_param hp ha
  rw [OutputFile.params, filterMap_parts_emit ho hp, haccessors]
  simp [constructorParts, readerParts, List.filterMap_cons, Part.params?, hname, listed_params hp,
    hparams, Function.comp_def]

theorem accessors_emit : (p.emit o).accessors = p.args.map fun a => (a.name, a.type.target) := by
  have hnew : between? (utf8 "&self) -> &") (utf8 " \x7b")
      (PredicateFile.params p ++ utf8 ") -> Self \x7b") = none := by
    have hand : byte '&' ∉ PredicateFile.params p ++ utf8 ") -> Self \x7b" := by
      rw [List.mem_append, not_or]
      exact ⟨ampersand_not_mem_params hp, by decide⟩
    exact between?_of_after? (after?_of_not_mem (by decide) hand)
  have hreader (rest : Bytes) : between? (utf8 "&self) -> &") (utf8 " \x7b")
      (utf8 "item: ConstraintItem, model: " ++ rest) = none :=
    between?_literal ⟨_, _, rfl, rfl, by decide⟩ _ rest
  simp [OutputFile.accessors, filterMap_parts_emit ho hp, constructorParts, accessorParts,
    readerParts, List.filterMap_cons, Part.accessor?, hnew, hreader, ← List.map_eq_flatMap,
    Function.comp_def]

theorem literal_emit : (p.emit o).literal = p.args.map Arg.name := by
  simp [OutputFile.literal, filterMap_parts_emit ho hp, constructorParts, accessorParts,
    readerParts, List.filterMap_cons, Part.literal?, listed_fields hp, Function.comp_def]

theorem call_emit : (p.emit o).call = p.args.map Arg.name := by
  simp [OutputFile.call, filterMap_parts_emit ho hp, constructorParts, accessorParts,
    readerParts, List.filterMap_cons, Part.call?, listed_fields hp, Function.comp_def]

theorem written_emit : (p.emit o).written = p.args.map Arg.name := by
  have harg : ∀ a ∈ p.args,
      between? (utf8 "            self.") (utf8 ".fzn(),") (fznLine a) = some a.name := by
    intro a _
    rw [fznLine, List.append_assoc, between?_append]
  simp (disch := exact ⟨_, _, rfl, rfl, by decide⟩) only [OutputFile.written,
    fznBlock_emit ho hp, fznBody, readings, List.append_assoc, List.filterMap_append,
    List.filterMap_cons, List.filterMap_nil, between?_utf8, between?_literal,
    filterMap_map_of_some harg, List.append_nil, List.nil_append]

theorem formatString?_emit :
    (p.emit o).formatString? = some (utf8 "\x7b\x7d(" ++ placeholders p ++ utf8 ")\\n") := by
  have hfirst : (utf8 "    fn fzn(&self) -> String \x7b" != utf8 "        format!(") = true := by
    decide
  have hstart : utf8 "            \"\x7b\x7d(" = utf8 "            \"" ++ utf8 "\x7b\x7d(" := by
    decide
  have hend : utf8 ")\\n\"," = utf8 ")\\n" ++ utf8 "\"," := by decide
  have hformat : utf8 "            \"\x7b\x7d(" ++ placeholders p ++ utf8 ")\\n\"," =
      utf8 "            \"" ++
        ((utf8 "\x7b\x7d(" ++ placeholders p ++ utf8 ")\\n") ++ utf8 "\",") := by
    simp only [hstart, hend, List.append_assoc]
  have hbelow : ((fznBody p).dropWhile (· != utf8 "        format!("))[1]? =
      some (utf8 "            \"\x7b\x7d(" ++ placeholders p ++ utf8 ")\\n\",") := by
    simp [fznBody, hfirst]
  rw [OutputFile.formatString?, fznBlock_emit ho hp, hbelow, Option.bind_some, hformat,
    between?_append]

/-- **Imports**: the file imports the paths of its groups. -/
theorem uses_emit : (p.emit o).uses = (Imports.groups o.crate p).flatten := by
  have hlines : (p.emit o).readLines =
      [OutputFile.header, []] ++ importLines (Imports.groups o.crate p) ++ belowImports o p := by
    simp only [readLines_emit_blocks ho hp, upper, preamble, belowImports, List.append_assoc,
      List.cons_append, List.nil_append]
  have hheader : readings (utf8 "use ") (utf8 ";") [OutputFile.header, []] = [] := by decide
  rw [OutputFile.uses, hlines, readings_append, readings_append, hheader, readings_importLines,
    readings_of_beginIn (beginIn_belowImports ho p) (by decide), List.append_nil, List.nil_append]

end

end PredicateFile

end ZincBind

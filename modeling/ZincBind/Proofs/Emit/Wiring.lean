import ZincBind.Proofs.Emit.Lines
import ZincBind.Proofs.Emit.UnitPaths

/-!
# ZincBind.Proofs.Emit.Wiring

How the generated files fit together.  The module of the builtins and the constraint enum name
the predicates' files and types a second time; reading all files back line by line shows that they
name the same ones (`wiring_read_back`).

In a predicate's file, four lines say what it is called: the struct, its constant `NAME`, and the
two conversions.  A line is one of them by how it begins (`isLandmark`), and the file has each of
them once (`filter_readLines_emit`), so no name, type or option can pass for one.
-/

namespace ZincBind

open Bytes Grammar

/-! ## Reading files -/

/-- The module name of a file: the last name of its path, less the ending of Rust files. -/
def OutputFile.stem? (f : OutputFile) : Option Bytes :=
  (pieces (byte '/') f.path).getLast?.bind (before? (utf8 ".rs"))

/-- The module and the type of a line that exports the type from the module. -/
def exported? (l : Bytes) : Option (Bytes × Bytes) := do
  let path ← between? (utf8 "pub use ") (utf8 ";") l
  let (stem, rest) ← cut? (byte ':') path
  let type ← after? (utf8 ":") rest
  return (stem, type)

/-- The line that opens the conversion from the constraint enum. -/
def downcastOpening (type : Bytes) : Bytes :=
  utf8 "impl TryFrom<Constraint> for " ++ type ++ utf8 " \x7b"

/-- The line that opens the conversion to the constraint enum. -/
def upcastOpening (type : Bytes) : Bytes :=
  utf8 "impl From<" ++ type ++ utf8 "> for Constraint \x7b"

/-- A predicate's file that says of itself, in every place, that it is a module with a type. -/
structure OutputFile.Declares (f : OutputFile) (stem type : Bytes) : Prop where
  path : f.stem? = some stem
  struct : readings (utf8 "pub struct ") (utf8 " \x7b") f.readLines = [type]
  constant : readings (utf8 "    pub const NAME: &str = \"") (utf8 "\";") f.readLines = [stem]
  downcast : readings (utf8 "impl TryFrom<Constraint> for ") (utf8 " \x7b") f.readLines = [type]
  arm : readings (utf8 "            Constraint::") (utf8 "(c) => Ok(c),")
    (bodyOf (downcastOpening type) f.readLines) = [type]
  upcast : readings (utf8 "impl From<") (utf8 "> for Constraint \x7b") f.readLines = [type]
  value : readings (utf8 "        Self::") (utf8 "(value)")
    (bodyOf (upcastOpening type) f.readLines) = [type]

/-- Files that fit together: what the predicates' files declare is what the module of the builtins
and the constraint enum list, in the same order and as often, and they list nothing else. -/
structure Wired (o : Options) (builtins constraint : OutputFile) (files : List OutputFile)
    (wires : List (Bytes × Bytes)) : Prop where
  declared : List.Forall₂ (fun f wire => f.Declares wire.1 wire.2) files wires
  builtins_path : builtins.path = utf8 "builtins/mod.rs"
  modules : readings (utf8 "mod ") (utf8 ";") builtins.readLines = wires.map Prod.fst
  exports : builtins.readLines.filterMap exported? = wires
  builtins_lines : builtins.readLines =
    [OutputFile.header, []] ++ wires.map (fun wire => utf8 "mod " ++ wire.1 ++ utf8 ";") ++ [[]] ++
      wires.map (fun wire => utf8 "pub use " ++ wire.1 ++ utf8 "::" ++ wire.2 ++ utf8 ";") ++ [[]]
  constraint_path : constraint.path = utf8 "constraint.rs"
  variants : bodyOf (utf8 "pub enum Constraint \x7b") constraint.readLines =
    wires.map fun wire => utf8 "    " ++ wire.2 ++ utf8 "(" ++ wire.2 ++ utf8 "),"
  constraint_lines : constraint.readLines =
    [OutputFile.header, [], utf8 "use " ++ o.crate ++ utf8 "::constraint::builtins::*;", [],
        o.derive, utf8 "pub enum Constraint \x7b"] ++
      wires.map (fun wire => utf8 "    " ++ wire.2 ++ utf8 "(" ++ wire.2 ++ utf8 "),") ++
      [utf8 "\x7d", []]

/-! ## Landmarks -/

/-- How the lines begin that say what a predicate's file is called. -/
def landmarks : List Bytes :=
  [utf8 "pub struct ", utf8 "    pub const NAME: &str = \"", utf8 "impl TryFrom<Constraint> for ",
    utf8 "impl From<"]

/-- Whether a line is one of these. -/
def isLandmark (l : Bytes) : Bool := landmarks.any fun start => (after? start l).isSome

/-- What is enough of each beginning to tell it from the lines that begin with a literal. -/
def signs : List (List Char) :=
  [['p', 'u', 'b', ' ', 's'],
   [' ', ' ', ' ', ' ', 'p', 'u', 'b', ' ', 'c', 'o', 'n', 's', 't', ' ', 'N', 'A'],
   ['i', 'm', 'p', 'l', ' ', 'T'],
   ['i', 'm', 'p', 'l', ' ', 'F', 'r']]

theorem isLandmark_eq_false_iff {l : Bytes} :
    isLandmark l = false ↔ ∀ start ∈ landmarks, after? start l = none := by
  simp only [isLandmark, List.any_eq_false, Bool.not_eq_true, Option.isSome_eq_false_iff,
    Option.isNone_iff_eq_none]

theorem exists_sign {start : Bytes} (h : start ∈ landmarks) :
    ∃ sign ∈ signs, ∃ rest, start = utf8 (String.ofList sign) ++ rest := by
  have hall : ∀ start ∈ landmarks, ∃ sign ∈ signs,
      (utf8 (String.ofList sign)).isPrefixOf start = true := by decide
  obtain ⟨sign, hsign, hstart⟩ := hall start h
  obtain ⟨rest, hrest⟩ := List.isPrefixOf_iff_prefix.1 hstart
  exact ⟨sign, hsign, rest, hrest.symm⟩

theorem isLandmark_literal {s : String}
    (h : ∃ cs, s = String.ofList cs ∧ signs.all (clashes · cs) = true) (rest : Bytes) :
    isLandmark (utf8 s ++ rest) = false := by
  obtain ⟨cs, rfl, hcs⟩ := h
  refine isLandmark_eq_false_iff.2 fun start hstart => ?_
  obtain ⟨sign, hsign, tail, rfl⟩ := exists_sign hstart
  exact after?_of_clashes (List.all_eq_true.1 hcs sign hsign) tail rest

theorem isLandmark_utf8 {s : String}
    (h : ∃ cs, s = String.ofList cs ∧ signs.all (clashes · cs) = true) :
    isLandmark (utf8 s) = false := by
  have hrest := isLandmark_literal h []
  rwa [List.append_nil] at hrest

theorem isLandmark_nil : isLandmark [] = false := by
  decide

theorem isLandmark_append {start : Bytes} (h : start ∈ landmarks) (rest : Bytes) :
    isLandmark (start ++ rest) = true := by
  refine List.any_eq_true.2 ⟨start, h, ?_⟩
  rw [after?_eq_some_iff.2 rfl, Option.isSome_some]

/-- What is read off landmarks is read off the landmarks among all lines. -/
theorem readings_filter {start : Bytes} (h : start ∈ landmarks) (ending : Bytes)
    (ls : List Bytes) : readings start ending (ls.filter isLandmark) = readings start ending ls := by
  rw [readings, readings, List.filterMap_filter]
  refine List.filterMap_congr fun l _ => ?_
  by_cases hl : isLandmark l = true
  · rw [if_pos hl]
  · rw [if_neg hl, between?_of_after? (isLandmark_eq_false_iff.1 (by simpa using hl) start h)]

/-! ## The landmarks of a predicate's file -/

namespace PredicateFile

theorem filter_importLines (groups : List (List Bytes)) :
    (importLines groups).filter isLandmark = [] := by
  refine List.filter_eq_nil_iff.2 fun l hl => ?_
  obtain rfl | ⟨g, -, path, -, rfl⟩ := mem_importLines hl
  · simp [isLandmark_nil]
  · simp (disch := exact ⟨_, rfl, by decide⟩) only [importLine, List.append_assoc,
      isLandmark_literal, Bool.false_eq_true, not_false_eq_true]

theorem filter_docLines (p : Predicate) : (docLines p).filter isLandmark = [] := by
  simp (disch := exact ⟨_, rfl, by decide⟩) only [docLines, declarationMark, List.filter_cons,
    List.filter_nil, isLandmark_literal, isLandmark_utf8, Bool.false_eq_true, ↓reduceIte]

theorem isLandmark_fieldLine {a : Arg} (hname : IsName a.name) (htype : a.type ∈ ArgType.registry) :
    isLandmark (fieldLine a) = false := by
  -- the name of a field may begin like the constant, but the line holds no quotation mark
  have htarget : ∀ t ∈ ArgType.registry, byte '"' ∉ t.target := by decide
  have hquote : byte '"' ∉ fieldLine a := by
    simp only [fieldLine, List.mem_append, not_or]
    exact ⟨⟨⟨⟨by decide, hname.not_mem (by decide)⟩, by decide⟩, htarget _ htype⟩, by decide⟩
  have hindent : ∃ rest, fieldLine a = utf8 "    " ++ rest := by
    simp only [fieldLine, List.append_assoc]
    exact ⟨_, rfl⟩
  obtain ⟨rest, hrest⟩ := hindent
  refine isLandmark_eq_false_iff.2 fun start hstart => ?_
  simp only [landmarks, List.mem_cons, List.not_mem_nil, or_false] at hstart
  obtain rfl | rfl | rfl | rfl := hstart
  · exact hrest ▸ after?_literal ⟨_, _, rfl, rfl, by decide⟩ rest
  · exact after?_of_not_mem (by decide) hquote
  · exact hrest ▸ after?_literal ⟨_, _, rfl, rfl, by decide⟩ rest
  · exact hrest ▸ after?_literal ⟨_, _, rfl, rfl, by decide⟩ rest

theorem isLandmark_implOpening {p : Predicate} (h : IsName p.name) :
    isLandmark (utf8 "impl " ++ p.typeName ++ utf8 " \x7b") = false := by
  -- a type may be called like a trait, but the line holds no angle bracket
  have htype : byte '<' ∉ p.typeName := fun hmem =>
    absurd (mem_wordBytes_of_mem_camel h hmem) (by decide)
  have hangle : byte '<' ∉ utf8 "impl " ++ p.typeName ++ utf8 " \x7b" := by
    simp only [List.mem_append, not_or]
    exact ⟨⟨by decide, htype⟩, by decide⟩
  rw [List.append_assoc] at hangle ⊢
  refine isLandmark_eq_false_iff.2 fun start hstart => ?_
  simp only [landmarks, List.mem_cons, List.not_mem_nil, or_false] at hstart
  obtain rfl | rfl | rfl | rfl := hstart
  · exact after?_literal ⟨_, _, rfl, rfl, by decide⟩ _
  · exact after?_literal ⟨_, _, rfl, rfl, by decide⟩ _
  · exact after?_of_not_mem (by decide) hangle
  · exact after?_of_not_mem (by decide) hangle

theorem filter_structLines {derive : Bytes} (hderive : ∃ rest, derive = utf8 "#[" ++ rest)
    {p : Predicate} (hp : p.IsDeclarable) :
    (structLines derive p).filter isLandmark =
      [utf8 "pub struct " ++ p.typeName ++ utf8 " \x7b"] := by
  obtain ⟨rest, rfl⟩ := hderive
  have hstruct : utf8 "pub struct " ∈ landmarks := by simp [landmarks]
  have hfields : (p.args.map fieldLine).filter isLandmark = [] := by
    refine List.filter_eq_nil_iff.2 (List.forall_mem_map.2 fun a ha => ?_)
    simp [isLandmark_fieldLine (hp.arg_name a ha).1 (hp.type_mem a ha)]
  simp (disch := exact ⟨_, rfl, by decide⟩) only [structLines, List.append_assoc,
    List.filter_append, List.filter_cons, List.filter_nil, isLandmark_literal, isLandmark_utf8,
    isLandmark_append hstruct, hfields, Bool.false_eq_true, ↓reduceIte, List.append_nil]

theorem filter_constructorLines (p : Predicate) :
    (constructorLines p).filter isLandmark =
      [utf8 "    pub const NAME: &str = \"" ++ p.name ++ utf8 "\";"] := by
  have hname : utf8 "    pub const NAME: &str = \"" ∈ landmarks := by simp [landmarks]
  simp (disch := exact ⟨_, rfl, by decide⟩) only [constructorLines, List.append_assoc,
    List.filter_cons, List.filter_nil, isLandmark_literal, isLandmark_utf8, isLandmark_nil,
    isLandmark_append hname, Bool.false_eq_true, ↓reduceIte]

theorem filter_accessorLines (args : List Arg) :
    (args.flatMap accessorLines).filter isLandmark = [] := by
  rw [List.filter_flatMap, List.flatMap_eq_nil_iff]
  intro a _
  simp (disch := exact ⟨_, rfl, by decide⟩) only [accessorLines, List.append_assoc,
    List.filter_cons, List.filter_nil, isLandmark_literal, isLandmark_utf8, isLandmark_nil,
    Bool.false_eq_true, ↓reduceIte]

theorem filter_readerLines (modelParam : Bytes) (p : Predicate) :
    (readerLines modelParam p).filter isLandmark = [] := by
  have hlet : (letLines 0 p.args).filter isLandmark = [] := by
    refine List.filter_eq_nil_iff.2 fun l hl => ?_
    obtain ⟨a, -, index, rfl⟩ := mem_letLines hl
    simp (disch := exact ⟨_, rfl, by decide⟩) only [letLine, List.append_assoc,
      isLandmark_literal, Bool.false_eq_true, not_false_eq_true]
  simp (disch := exact ⟨_, rfl, by decide⟩) only [readerLines, List.append_assoc,
    List.filter_append, List.filter_cons, List.filter_nil, isLandmark_literal, isLandmark_utf8,
    hlet, Bool.false_eq_true, ↓reduceIte, List.append_nil]

theorem filter_implLines (modelParam : Bytes) {p : Predicate} (hp : IsName p.name) :
    (implLines modelParam p).filter isLandmark =
      [utf8 "    pub const NAME: &str = \"" ++ p.name ++ utf8 "\";"] := by
  have hclosing : isLandmark (utf8 "\x7d") = false := isLandmark_utf8 ⟨_, rfl, by decide⟩
  simp only [implLines, List.filter_append, List.filter_cons, List.filter_nil,
    isLandmark_implOpening hp, filter_constructorLines, filter_accessorLines, filter_readerLines,
    hclosing, isLandmark_nil, Bool.false_eq_true, ↓reduceIte, List.append_nil, List.nil_append]

theorem filter_fznLines (p : Predicate) : (fznLines p).filter isLandmark = [] := by
  have hargs : (p.args.map fznLine).filter isLandmark = [] := by
    refine List.filter_eq_nil_iff.2 (List.forall_mem_map.2 fun a _ => ?_)
    simp (disch := exact ⟨_, rfl, by decide⟩) only [fznLine, List.append_assoc,
      isLandmark_literal, Bool.false_eq_true, not_false_eq_true]
  simp (disch := exact ⟨_, rfl, by decide⟩) only [fznLines, List.append_assoc,
    List.filter_append, List.filter_cons, List.filter_nil, isLandmark_literal, isLandmark_utf8,
    hargs, Bool.false_eq_true, ↓reduceIte, List.append_nil]

theorem filter_downcastLines (p : Predicate) :
    (downcastLines p).filter isLandmark = [downcastOpening p.typeName] := by
  have hopening : utf8 "impl TryFrom<Constraint> for " ∈ landmarks := by simp [landmarks]
  simp (disch := exact ⟨_, rfl, by decide⟩) only [downcastLines, downcastOpening,
    List.append_assoc, List.filter_cons, List.filter_nil, isLandmark_literal, isLandmark_utf8,
    isLandmark_nil, isLandmark_append hopening, Bool.false_eq_true, ↓reduceIte]

theorem filter_upcastLines (p : Predicate) :
    (upcastLines p).filter isLandmark = [upcastOpening p.typeName] := by
  have hopening : utf8 "impl From<" ∈ landmarks := by simp [landmarks]
  simp (disch := exact ⟨_, rfl, by decide⟩) only [upcastLines, upcastOpening,
    List.append_assoc, List.filter_cons, List.filter_nil, isLandmark_literal, isLandmark_utf8,
    isLandmark_append hopening, Bool.false_eq_true, ↓reduceIte]

/-- The lines of a predicate's file above the conversions. -/
def upperLines (o : Options) (p : Predicate) : List Bytes :=
  [OutputFile.header, []] ++ importLines (Imports.groups o.crate p) ++ [[]] ++ docLines p ++
    structLines o.derive p ++ [[]] ++ implLines o.modelParam p ++ [[]] ++ fznLines p ++ [[]]

theorem readLines_emit_eq {o : Options} (ho : o.IsInline) {p : Predicate} (hp : p.IsDeclarable) :
    (p.emit o).readLines = upperLines o p ++ downcastLines p ++ [[]] ++ upcastLines p ++ [[]] := by
  simp only [readLines_emit ho hp, lines, upperLines, List.append_assoc, List.cons_append,
    List.nil_append]

theorem filter_upperLines {o : Options} (ho : o.IsInline) {p : Predicate} (hp : p.IsDeclarable) :
    (upperLines o p).filter isLandmark =
      [utf8 "pub struct " ++ p.typeName ++ utf8 " \x7b",
       utf8 "    pub const NAME: &str = \"" ++ p.name ++ utf8 "\";"] := by
  have hheader : isLandmark OutputFile.header = false := isLandmark_utf8 ⟨_, rfl, by decide⟩
  simp only [upperLines, List.filter_append, List.filter_cons, List.filter_nil, hheader,
    isLandmark_nil, filter_importLines, filter_docLines, filter_structLines ho.opening hp,
    filter_implLines _ hp.name, filter_fznLines, Bool.false_eq_true, ↓reduceIte, List.append_nil,
    List.nil_append, List.cons_append]

/-- The four lines that say what a predicate's file is called. -/
def landmarkLines (p : Predicate) : List Bytes :=
  [utf8 "pub struct " ++ p.typeName ++ utf8 " \x7b",
   utf8 "    pub const NAME: &str = \"" ++ p.name ++ utf8 "\";",
   downcastOpening p.typeName,
   upcastOpening p.typeName]

/-- **Landmarks**: a predicate's file says what it is called on these lines, once on each. -/
theorem filter_readLines_emit {o : Options} (ho : o.IsInline) {p : Predicate}
    (hp : p.IsDeclarable) : (p.emit o).readLines.filter isLandmark = landmarkLines p := by
  simp only [landmarkLines, readLines_emit_eq ho hp, List.filter_append, List.filter_cons, List.filter_nil,
    filter_upperLines ho hp, filter_downcastLines, filter_upcastLines, isLandmark_nil,
    Bool.false_eq_true, ↓reduceIte, List.append_nil, List.cons_append, List.nil_append]

/-! ## The conversions of a predicate's file -/

/-- The lines inside the conversion from the constraint enum. -/
def downcastBody (p : Predicate) : List Bytes := ((downcastLines p).drop 1).dropLast

/-- The lines inside the conversion to the constraint enum. -/
def upcastBody (p : Predicate) : List Bytes := ((upcastLines p).drop 1).dropLast

theorem downcastLines_eq (p : Predicate) :
    downcastLines p = downcastOpening p.typeName :: (downcastBody p ++ [utf8 "\x7d"]) := rfl

theorem upcastLines_eq (p : Predicate) :
    upcastLines p = upcastOpening p.typeName :: (upcastBody p ++ [utf8 "\x7d"]) := rfl

theorem not_mem_of_not_mem_filter {l : Bytes} {ls : List Bytes} (hl : isLandmark l = true)
    (h : l ∉ ls.filter isLandmark) : l ∉ ls := fun hmem => h (List.mem_filter.2 ⟨hmem, hl⟩)

theorem bodyOf_downcast {o : Options} (ho : o.IsInline) {p : Predicate} (hp : p.IsDeclarable) :
    bodyOf (downcastOpening p.typeName) (p.emit o).readLines = downcastBody p := by
  have hlandmark : isLandmark (downcastOpening p.typeName) = true := by
    rw [downcastOpening, List.append_assoc, isLandmark_append (by simp [landmarks])]
  have hbefore : downcastOpening p.typeName ∉ upperLines o p := by
    refine not_mem_of_not_mem_filter hlandmark ?_
    simp (disch := exact ⟨_, _, rfl, rfl, by decide⟩) only [filter_upperLines ho hp,
      downcastOpening, List.append_assoc, List.mem_cons, List.not_mem_nil, literal_append_ne,
      or_self, not_false_eq_true]
  have hbody : utf8 "\x7d" ∉ downcastBody p := by
    have hblank : utf8 "\x7d" ≠ [] := by decide
    simp (disch := exact ⟨_, _, rfl, rfl, by decide⟩) only [downcastBody, downcastLines,
      List.drop_succ_cons, List.drop_zero, List.dropLast_cons_cons, List.dropLast_singleton,
      List.append_assoc, List.mem_cons, List.not_mem_nil, literal_ne_append, literal_ne, hblank,
      or_self, not_false_eq_true]
  have hbodyOf := bodyOf_append hbefore hbody ([] :: (upcastLines p ++ [[]]))
  simpa only [readLines_emit_eq ho hp, downcastLines_eq, List.append_assoc, List.cons_append,
    List.nil_append] using hbodyOf

theorem bodyOf_upcast {o : Options} (ho : o.IsInline) {p : Predicate} (hp : p.IsDeclarable) :
    bodyOf (upcastOpening p.typeName) (p.emit o).readLines = upcastBody p := by
  have hlandmark : isLandmark (upcastOpening p.typeName) = true := by
    rw [upcastOpening, List.append_assoc, isLandmark_append (by simp [landmarks])]
  have hbefore : upcastOpening p.typeName ∉ upperLines o p ++ downcastLines p ++ [[]] := by
    refine not_mem_of_not_mem_filter hlandmark ?_
    simp (disch := exact ⟨_, _, rfl, rfl, by decide⟩) only [List.filter_append, List.filter_cons,
      List.filter_nil, filter_upperLines ho hp, filter_downcastLines, isLandmark_nil,
      Bool.false_eq_true, ↓reduceIte, List.append_nil, List.cons_append, List.nil_append,
      upcastOpening, downcastOpening, List.append_assoc, List.mem_cons, List.not_mem_nil,
      literal_append_ne, or_self, not_false_eq_true]
  have hbody : utf8 "\x7d" ∉ upcastBody p := by
    simp (disch := exact ⟨_, _, rfl, rfl, by decide⟩) only [upcastBody, upcastLines,
      List.drop_succ_cons, List.drop_zero, List.dropLast_cons_cons, List.dropLast_singleton,
      List.append_assoc, List.mem_cons, List.not_mem_nil, literal_ne_append, literal_ne, or_self,
      not_false_eq_true]
  have hbodyOf := bodyOf_append hbefore hbody [[]]
  simpa only [readLines_emit_eq ho hp, upcastLines_eq, List.append_assoc, List.cons_append,
    List.nil_append] using hbodyOf

theorem readings_downcastBody (p : Predicate) :
    readings (utf8 "            Constraint::") (utf8 "(c) => Ok(c),") (downcastBody p) =
      [p.typeName] := by
  have hstart : utf8 "            Constraint::" ≠ [] := by decide
  simp (disch := exact ⟨_, _, rfl, rfl, by decide⟩) only [downcastBody, downcastLines,
    List.drop_succ_cons, List.drop_zero, List.dropLast_cons_cons, List.dropLast_singleton, readings,
    List.filterMap_cons, List.filterMap_nil, List.append_assoc, between?_append,
    between?_literal, between?_utf8, between?_nil hstart]

theorem readings_upcastBody (p : Predicate) :
    readings (utf8 "        Self::") (utf8 "(value)") (upcastBody p) = [p.typeName] := by
  simp (disch := exact ⟨_, _, rfl, rfl, by decide⟩) only [upcastBody, upcastLines,
    List.drop_succ_cons, List.drop_zero, List.dropLast_cons_cons, List.dropLast_singleton, readings,
    List.filterMap_cons, List.filterMap_nil, List.append_assoc, between?_append,
    between?_literal, between?_utf8]

end PredicateFile

/-! ## What the files declare -/

theorem OutputFile.IsRustFile.stem?_eq {f : OutputFile} {dirs : List Bytes} {stem : Bytes}
    (h : f.IsRustFile dirs stem) : f.stem? = some stem := by
  have hslash : utf8 "/" = [byte '/'] := by decide
  have hpieces := pieces_joined (List.append_ne_nil_of_right_ne_nil dirs (List.cons_ne_nil _ []))
    fun n hn => (h.isPlain n hn).slash_not_mem
  rw [OutputFile.stem?, h.path, hslash, hpieces, List.getLast?_concat, Option.bind_some,
    before?_eq_some_iff]

theorem readings_landmarkLines (p : Predicate) :
    readings (utf8 "pub struct ") (utf8 " \x7b") (PredicateFile.landmarkLines p) = [p.typeName] ∧
    readings (utf8 "    pub const NAME: &str = \"") (utf8 "\";") (PredicateFile.landmarkLines p) =
      [p.name] ∧
    readings (utf8 "impl TryFrom<Constraint> for ") (utf8 " \x7b")
      (PredicateFile.landmarkLines p) = [p.typeName] ∧
    readings (utf8 "impl From<") (utf8 "> for Constraint \x7b") (PredicateFile.landmarkLines p) =
      [p.typeName] := by
  simp (disch := exact ⟨_, _, rfl, rfl, by decide⟩) only [PredicateFile.landmarkLines,
    downcastOpening, upcastOpening, readings, List.filterMap_cons, List.filterMap_nil,
    List.append_assoc, between?_append, between?_literal, and_self]

/-- **Predicate files**: the file of a predicate declares the predicate's name and type. -/
theorem declares_emit {o : Options} (ho : o.IsInline) {p : Predicate} (hp : p.IsDeclarable) :
    (p.emit o).Declares p.name p.typeName := by
  obtain ⟨hstruct, hconstant, hdowncast, hupcast⟩ := readings_landmarkLines p
  have hread : ∀ start ∈ landmarks, ∀ ending, readings start ending (p.emit o).readLines =
      readings start ending (PredicateFile.landmarkLines p) := by
    intro start hstart ending
    rw [← readings_filter hstart, PredicateFile.filter_readLines_emit ho hp]
  exact {
    path := (isRustFile_emit o hp.name).stem?_eq
    struct := (hread _ (by simp [landmarks]) _).trans hstruct
    constant := (hread _ (by simp [landmarks]) _).trans hconstant
    downcast := (hread _ (by simp [landmarks]) _).trans hdowncast
    arm := by rw [PredicateFile.bodyOf_downcast ho hp, PredicateFile.readings_downcastBody]
    upcast := (hread _ (by simp [landmarks]) _).trans hupcast
    value := by rw [PredicateFile.bodyOf_upcast ho hp, PredicateFile.readings_upcastBody] }

/-! ## What the files for the whole list name -/

namespace ModuleFiles

theorem exported?_useLine {p : Predicate} (h : IsName p.name) :
    exported? (useLine p) = some (p.name, p.typeName) := by
  have hline : useLine p =
      utf8 "pub use " ++ ((p.name ++ byte ':' :: (utf8 ":" ++ p.typeName)) ++ utf8 ";") := by
    simp only [useLine, List.append_assoc]
    rfl
  have hcut : cut? (byte ':') (p.name ++ byte ':' :: (utf8 ":" ++ p.typeName)) =
      some (p.name, utf8 ":" ++ p.typeName) := cut?_eq_some_iff.2 ⟨h.not_mem (by decide), rfl⟩
  have hbetween : between? (utf8 "pub use ") (utf8 ";") (useLine p) =
      some (p.name ++ byte ':' :: (utf8 ":" ++ p.typeName)) := by rw [hline, between?_append]
  have hafter : after? (utf8 ":") (utf8 ":" ++ p.typeName) = some p.typeName :=
    after?_eq_some_iff.2 rfl
  simp [exported?, hbetween, hcut, hafter]

theorem exported?_of_between? {l : Bytes} (h : between? (utf8 "pub use ") (utf8 ";") l = none) :
    exported? l = none := by
  simp [exported?, h]

/-- The module of the builtins declares the module of every predicate, in order. -/
theorem readings_builtins {ps : List Predicate} (hps : ∀ p ∈ ps, p.IsDeclarable) :
    readings (utf8 "mod ") (utf8 ";") (builtins ps).readLines = ps.map Predicate.name := by
  have hstart : utf8 "mod " ≠ [] := by decide
  have hmods : (ps.map modLine).filterMap (between? (utf8 "mod ") (utf8 ";")) =
      ps.map Predicate.name := by
    refine filterMap_map_of_some fun p _ => ?_
    rw [modLine, List.append_assoc, between?_append]
  have huses : (ps.map useLine).filterMap (between? (utf8 "mod ") (utf8 ";")) = [] := by
    refine List.filterMap_eq_nil_iff.2 (List.forall_mem_map.2 fun p _ => ?_)
    simp (disch := exact ⟨_, _, rfl, rfl, by decide⟩) only [useLine, List.append_assoc,
      between?_literal]
  simp (disch := exact ⟨_, _, rfl, rfl, by decide⟩) only [readLines_builtins hps, readings,
    OutputFile.header, List.filterMap_cons, List.filterMap_append, List.filterMap_nil, hmods,
    huses, between?_utf8, between?_nil hstart, List.append_nil, List.nil_append]

/-- It exports every predicate's type from the predicate's module, in order. -/
theorem exports_builtins {ps : List Predicate} (hps : ∀ p ∈ ps, p.IsDeclarable) :
    (builtins ps).readLines.filterMap exported? = ps.map fun p => (p.name, p.typeName) := by
  have hheader : exported? OutputFile.header = none :=
    exported?_of_between? (between?_utf8 ⟨_, _, rfl, rfl, by decide⟩ _)
  have hblank : exported? [] = none := exported?_of_between? (between?_nil (by decide) _)
  have hmods : (ps.map modLine).filterMap exported? = [] := by
    refine List.filterMap_eq_nil_iff.2 (List.forall_mem_map.2 fun p _ => ?_)
    rw [modLine, List.append_assoc]
    exact exported?_of_between? (between?_literal ⟨_, _, rfl, rfl, by decide⟩ _ _)
  have huses : (ps.map useLine).filterMap exported? = ps.map fun p => (p.name, p.typeName) :=
    filterMap_map_of_some fun p hp => exported?_useLine (hps p hp).name
  simp only [readLines_builtins hps, List.filterMap_cons, List.filterMap_append,
    List.filterMap_nil, hheader, hblank, hmods, huses, List.append_nil, List.nil_append]

/-- The constraint enum has a variant for every predicate, in order. -/
theorem bodyOf_constraint {o : Options} (ho : o.IsInline) {ps : List Predicate}
    (hps : ∀ p ∈ ps, p.IsDeclarable) :
    bodyOf (utf8 "pub enum Constraint \x7b") (constraint o ps).readLines =
      ps.map variantLine := by
  obtain ⟨rest, hderive⟩ := ho.opening
  have hblank : utf8 "pub enum Constraint \x7b" ≠ [] := by decide
  have hbefore : utf8 "pub enum Constraint \x7b" ∉
      [OutputFile.header, [], utf8 "use " ++ o.crate ++ utf8 "::constraint::builtins::*;", [],
        o.derive] := by
    simp (disch := exact ⟨_, _, rfl, rfl, by decide⟩) only [OutputFile.header, hderive,
      List.append_assoc, List.mem_cons, List.not_mem_nil, literal_ne, literal_ne_append, hblank,
      or_self, not_false_eq_true]
  have hbody : utf8 "\x7d" ∉ ps.map variantLine := by
    intro hmem
    obtain ⟨p, -, hp⟩ := List.mem_map.1 hmem
    rw [variantLine, List.append_assoc, List.append_assoc, List.append_assoc] at hp
    exact literal_ne_append ⟨_, _, rfl, rfl, by decide⟩ _ hp.symm
  have hbodyOf := bodyOf_append hbefore hbody [[]]
  simpa only [readLines_constraint ho hps, List.append_assoc, List.cons_append, List.nil_append]
    using hbodyOf

end ModuleFiles

theorem wired_generate {o : Options} (ho : o.IsInline) {ps : List Predicate}
    (hps : ∀ p ∈ ps, p.IsDeclarable) :
    Wired o (ModuleFiles.builtins ps) (ModuleFiles.constraint o ps) (ps.map (Predicate.emit o))
      (ps.map fun p => (p.name, p.typeName)) where
  declared := by
    rw [List.forall₂_map_left_iff, List.forall₂_map_right_iff, List.forall₂_same]
    exact fun p hp => declares_emit ho (hps p hp)
  builtins_path := path_builtins ps
  modules := by
    rw [ModuleFiles.readings_builtins hps, List.map_map]
    rfl
  exports := ModuleFiles.exports_builtins hps
  builtins_lines := by
    rw [ModuleFiles.readLines_builtins hps, List.map_map, List.map_map]
    rfl
  constraint_path := rfl
  variants := by
    rw [ModuleFiles.bodyOf_constraint ho hps, List.map_map]
    rfl
  constraint_lines := by
    rw [ModuleFiles.readLines_constraint ho hps, List.map_map]
    rfl

/-- **Wiring**: reading back the files for the predicates of an accepted text, generated with
accepted settings without line feeds, shows that they fit together. The files come in the order of
the predicates, after the three files for the whole list. -/
theorem wiring_read_back {text : Bytes} {ps : List Predicate}
    (hparse : DeclarationFile.parse text = .ok ps) {s : Settings} (hvalid : s.validate = .ok ())
    (hderive : byte '\n' ∉ s.options.derive) (hmodel : byte '\n' ∉ s.options.modelParam) :
    ∃ builtins constraint root files wires,
      generate s.options ps = builtins :: constraint :: root :: files ∧
        files.length = ps.length ∧ Wired s.options builtins constraint files wires := by
  have hinline := Options.isInline_of_validate hvalid hderive hmodel
  have hwired := wired_generate hinline (isDeclarable_of_mem hparse)
  exact ⟨_, _, _, _, _, rfl, List.length_map _, hwired⟩

/-- A predicate whose type is called like the trait of its conversion and whose field begins like
a constant. -/
def lookalike : Predicate :=
  ⟨utf8 "try_from", [⟨ArgType.ofTarget "int" "Int" "types::Int" "int_from_expr", utf8 "pub"⟩]⟩

/-- It is declared twice here, without harm to the wiring. -/
theorem lookalikes_wiring :
    DeclarationFile.parse (utf8 "predicate try_from(int: pub)\npredicate try_from(int: pub)") =
        .ok [lookalike, lookalike] ∧
      ∃ builtins constraint root files wires,
        generate Settings.standard.options [lookalike, lookalike] =
            builtins :: constraint :: root :: files ∧
          files.length = 2 ∧ Wired Settings.standard.options builtins constraint files wires := by
  have hparse : DeclarationFile.parse
      (utf8 "predicate try_from(int: pub)\npredicate try_from(int: pub)") =
        .ok [lookalike, lookalike] := by rfl
  have hvalid : Settings.standard.validate = .ok () := by rfl
  exact ⟨hparse, wiring_read_back hparse hvalid (by decide) (by decide)⟩

end ZincBind

import ZincBind.Proofs.Emit.Lines

/-!
# ZincBind.Proofs.Emit.Recovery

From generated files back to declarations.  The documentation of a struct shows the declaration that
the file comes from, below a mark.  Only imports stand above the first mark, and they are lines of
their own whatever the attribute and the model parameter below it hold, so the declaration is found
there (`declaration?_emit`), and the declarations of all files together are read as the predicates
that the files come from (`output_determines_source`).
-/

namespace ZincBind

open Bytes Grammar

/-- The declaration a file shows: the line after the first mark, without its slashes. -/
def OutputFile.declaration? (f : OutputFile) : Option Bytes :=
  ((f.readLines.dropWhile (· != PredicateFile.declarationMark))[1]?).bind (after? (utf8 "/// "))

/-- The declarations that files show, one a line. -/
def OutputFile.declarations? (files : List OutputFile) : Option Bytes :=
  (files.mapM OutputFile.declaration?).map (joined (utf8 "\n"))

namespace PredicateFile

/-- The lines of a predicate's file above the documentation of its struct. -/
def importBlock (crate : Bytes) (p : Predicate) : List Bytes :=
  [OutputFile.header, []] ++ importLines (Imports.groups crate p) ++ [[]]

theorem mark_not_mem_importBlock (crate : Bytes) (p : Predicate) :
    declarationMark ∉ importBlock crate p := by
  have hheader : declarationMark ≠ OutputFile.header := by decide
  have hblank : declarationMark ≠ [] := by decide
  have himports : declarationMark ∉ importLines (Imports.groups crate p) := by
    intro hmem
    obtain h | ⟨g, -, path, -, h⟩ := mem_importLines hmem
    · exact hblank h
    · rw [importLine, List.append_assoc] at h
      exact literal_ne_append ⟨_, _, rfl, rfl, by decide⟩ _ h
  simp [importBlock, hheader, hblank, himports]

/-- A predicate's file begins with the imports and the documentation of its struct. -/
theorem exists_readLines_emit {o : Options} (hcrate : IsLine o.crate) {p : Predicate}
    (hp : p.IsDeclarable) :
    ∃ rest, (p.emit o).readLines = importBlock o.crate p ++ (docLines p ++ rest) := by
  have hlines : AreLines (importBlock o.crate p ++ docLines p) := by
    have himports : AreLines (importLines (Imports.groups o.crate p)) :=
      areLines_importLines fun _ hg => areLines_of_mem_groups hcrate hp hg
    simp only [importBlock, allLines_append_iff, allLines_cons_iff, allLines_nil, isLine_nil,
      isLine_header, himports, areLines_docLines hp, and_self]
  obtain ⟨below, hbelow⟩ : ∃ below, OutputFile.header :: [] :: lines o p =
      importBlock o.crate p ++ docLines p ++ below := by
    simp only [lines, importBlock, List.append_assoc, List.cons_append, List.nil_append]
    exact ⟨_, rfl⟩
  -- nothing is known of the lines below: the attribute may hold line feeds
  refine ⟨pieces (byte '\n') (unlines below), ?_⟩
  rw [OutputFile.readLines, Predicate.emit, OutputFile.ofLines, hbelow, unlines_append,
    pieces_unlines_append hlines, List.append_assoc]

/-- **Recovery**: the file of a predicate shows the predicate's declaration. -/
theorem declaration?_emit {o : Options} (hcrate : IsLine o.crate) {p : Predicate}
    (hp : p.IsDeclarable) : (p.emit o).declaration? = some p.render := by
  obtain ⟨rest, hrest⟩ := exists_readLines_emit hcrate hp
  have hpass : ∀ l ∈ importBlock o.crate p, (l != declarationMark) = true := by
    intro l hl
    rw [bne_iff_ne]
    rintro rfl
    exact mark_not_mem_importBlock o.crate p hl
  have hafter : after? (utf8 "/// ") (utf8 "/// " ++ p.render) = some p.render :=
    after?_eq_some_iff.2 rfl
  rw [OutputFile.declaration?, hrest, List.dropWhile_append_of_pos hpass]
  simp [docLines, hafter]

end PredicateFile

/-- The files of predicates show their declarations in order. -/
theorem declarations?_map_emit {o : Options} (hcrate : IsLine o.crate) {ps : List Predicate}
    (hps : ∀ p ∈ ps, p.IsDeclarable) :
    OutputFile.declarations? (ps.map (Predicate.emit o)) =
      some (joined (utf8 "\n") (ps.map Predicate.render)) := by
  have hall : (ps.map (Predicate.emit o)).mapM OutputFile.declaration? =
      some (ps.map Predicate.render) := by
    induction ps with
    | nil => rfl
    | cons p ps ih =>
        have hp := PredicateFile.declaration?_emit hcrate (hps p List.mem_cons_self)
        simp [hp, ih fun q hq => hps q (List.mem_cons_of_mem p hq)]
  rw [OutputFile.declarations?, hall, Option.map_some]

/-- Files of different predicates differ. -/
theorem emit_content_injective {o : Options} (hcrate : IsLine o.crate) {p q : Predicate}
    (hp : p.IsDeclarable) (hq : q.IsDeclarable)
    (h : (p.emit o).content = (q.emit o).content) : p = q := by
  have hdeclaration : (p.emit o).declaration? = (q.emit o).declaration? := by
    rw [OutputFile.declaration?, OutputFile.declaration?, OutputFile.readLines,
      OutputFile.readLines, h]
  rw [PredicateFile.declaration?_emit hcrate hp, PredicateFile.declaration?_emit hcrate hq,
    Option.some.injEq] at hdeclaration
  have hparse := parse_render hp
  rw [hdeclaration, parse_render hq, Except.ok.injEq] at hparse
  exact hparse.symm

/-- **Output determines its source**: from the files generated for the predicates of an accepted text
with accepted settings, the declarations that the predicates' files show make up a text that is read
as the same predicates, so generating from that text gives the same files; and with these settings no
two predicates that can be read have files with the same content. -/
theorem output_determines_source {text : Bytes} {ps : List Predicate}
    (hparse : DeclarationFile.parse text = .ok ps) {s : Settings} (hvalid : s.validate = .ok ()) :
    (∃ source, OutputFile.declarations? ((generate s.options ps).drop 3) = some source ∧
      DeclarationFile.parse source = .ok ps ∧
      (DeclarationFile.parse source).map (generate s.options) = .ok (generate s.options ps)) ∧
    ∀ line line' p q, Predicate.parse line = .ok p → Predicate.parse line' = .ok q →
      (p.emit s.options).content = (q.emit s.options).content → p = q := by
  have hcrate := Settings.isLine_crate hvalid
  have hps := isDeclarable_of_mem hparse
  constructor
  · have hfiles : (generate s.options ps).drop 3 = ps.map (Predicate.emit s.options) := rfl
    have hsource := parse_joined_render hps
    refine ⟨_, hfiles ▸ declarations?_map_emit hcrate hps, hsource, ?_⟩
    rw [hsource]
    rfl
  · intro line line' p q hp hq
    exact emit_content_injective hcrate (isDeclarable_of_parse hp) (isDeclarable_of_parse hq)

/-- Settings whose attribute and model parameter go over several lines, among them a mark and a
declaration. -/
def forgingSettings : Settings where
  options :=
    { crate := utf8 "crate::fzn"
      derive := utf8 "#[doc = \"\n/// ```flatzinc\n/// predicate forged(int: a)\n\"]"
      modelParam := utf8 "&mut\n/// ```flatzinc\nModel" }
  logLevel := utf8 "info"

/-- The predicates of a text with a comment, a carriage return and names that are shortened. -/
def intEqBoolNot : List Predicate :=
  [⟨utf8 "int_eq",
      [⟨ArgType.ofTarget "int" "Int" "types::Int" "int_from_expr", utf8 "a"⟩,
       ⟨ArgType.ofTarget "var int" "Rc<VarInt>" "var::VarInt" "var_int_from_expr", utf8 "b"⟩]⟩,
   ⟨utf8 "bool_not", [⟨ArgType.ofTarget "bool" "bool" "" "bool_from_expr", utf8 "x"⟩]⟩]

/-- The declarations are recovered all the same. -/
theorem forged_marks_ignored :
    DeclarationFile.parse
        (utf8 "% eq\npredicate int_eq(int: as, var int:bs)\r\n\npredicate bool_not(bool: x)") =
        .ok intEqBoolNot ∧
      forgingSettings.validate = .ok () ∧
      ∃ source,
        OutputFile.declarations? ((generate forgingSettings.options intEqBoolNot).drop 3) =
            some source ∧
          DeclarationFile.parse source = .ok intEqBoolNot := by
  have hparse : DeclarationFile.parse
      (utf8 "% eq\npredicate int_eq(int: as, var int:bs)\r\n\npredicate bool_not(bool: x)") =
        .ok intEqBoolNot := by rfl
  have hvalid : forgingSettings.validate = .ok () := by rfl
  obtain ⟨⟨source, hsource, hread, -⟩, -⟩ := output_determines_source hparse hvalid
  exact ⟨hparse, hvalid, source, hsource, hread⟩

end ZincBind

import ZincBind.Proofs.Declaration.Camel
import ZincBind.Proofs.Emit.Lines

/-!
# ZincBind.Proofs.Emit.Variants

The variants of the constraint enum.  They are read off the generated file behind the last line that
opens the enum, because the options above it may hold anything, that line included
(`variants_constraint`).  A variant is the type name of a predicate, so two predicates clash in the
enum exactly when their names have the same norm (`variants_nodup_iff`).
-/

namespace ZincBind

open Bytes Grammar

/-! ## Reading variants -/

/-- The variant a line declares: the name before the type that it holds. -/
def variant? (l : Bytes) : Option Bytes :=
  (between? (utf8 "    ") (utf8 "),") l).bind fun held => (cut? (byte '(') held).map Prod.fst

/-- The variants of the constraint enum in a file, in order. -/
def OutputFile.variants (f : OutputFile) : List Bytes :=
  (f.readLines.rtakeWhile (· != utf8 "pub enum Constraint \x7b")).filterMap variant?

theorem rtakeWhile_append_cons {opening : Bytes} {body : List Bytes} (h : opening ∉ body)
    (top : List Bytes) : (top ++ opening :: body).rtakeWhile (· != opening) = body := by
  have hpass : ∀ l ∈ body.reverse, (l != opening) = true := by
    intro l hl
    rw [bne_iff_ne]
    rintro rfl
    exact h (List.mem_reverse.1 hl)
  rw [List.rtakeWhile, List.reverse_append, List.reverse_cons, List.append_assoc,
    List.takeWhile_append_of_pos hpass, List.singleton_append, List.takeWhile_cons_of_neg (by simp),
    List.append_nil, List.reverse_reverse]

namespace ModuleFiles

theorem variant?_variantLine {p : Predicate} (h : IsName p.name) :
    variant? (variantLine p) = some p.typeName := by
  have hopen : byte '(' ∉ p.typeName := (Camel.isName_camel h).not_mem (by decide)
  have hline : variantLine p =
      utf8 "    " ++ ((p.typeName ++ byte '(' :: p.typeName) ++ utf8 "),") := by
    simp only [variantLine, List.append_assoc]
    rfl
  rw [variant?, hline, between?_append, Option.bind_some, cut?_eq_some_iff.2 ⟨hopen, rfl⟩]
  rfl

/-- The enum stands at the end of its file, whatever the options above it are. -/
theorem exists_readLines_constraint (o : Options) {ps : List Predicate}
    (hps : ∀ p ∈ ps, IsName p.name) :
    ∃ top, (constraint o ps).readLines =
      top ++ utf8 "pub enum Constraint \x7b" :: (ps.map variantLine ++ [utf8 "\x7d", []]) := by
  have hlines : AreLines (utf8 "pub enum Constraint \x7b" :: (ps.map variantLine ++ [utf8 "\x7d"])) := by
    have hvariant : AreLines (ps.map variantLine) := by
      refine allLines_map_iff.2 fun p hp => ?_
      simp (disch := exact ⟨_, rfl, by decide⟩) only [variantLine, isLine_append_iff,
        isLine_literal, isLine_typeName (hps p hp), and_self]
    simp (disch := exact ⟨_, rfl, by decide⟩) only [allLines_append_iff, allLines_cons_iff,
      allLines_nil, isLine_literal, hvariant, and_self]
  have hcontent : (constraint o ps).content =
      (unlines [OutputFile.header, [], utf8 "use " ++ o.crate ++ utf8 "::constraint::builtins::*;",
          []] ++ o.derive) ++ byte '\n' ::
        unlines (utf8 "pub enum Constraint \x7b" :: (ps.map variantLine ++ [utf8 "\x7d"])) := by
    simp [constraint, OutputFile.ofLines]
  have hread := congrArg (pieces (byte '\n')) hcontent
  rw [pieces_append_cons, pieces_unlines hlines, List.cons_append,
    List.append_assoc (ps.map variantLine)] at hread
  exact ⟨_, hread⟩

/-- **Variants**: the enum has the type name of every predicate as a variant, in order. -/
theorem variants_constraint (o : Options) {ps : List Predicate} (hps : ∀ p ∈ ps, IsName p.name) :
    (constraint o ps).variants = ps.map Predicate.typeName := by
  obtain ⟨top, htop⟩ := exists_readLines_constraint o hps
  have hopening : utf8 "pub enum Constraint \x7b" ∉ ps.map variantLine ++ [utf8 "\x7d", []] := by
    have hblank : utf8 "pub enum Constraint \x7b" ≠ [] := by decide
    have hbrace : utf8 "pub enum Constraint \x7b" ≠ utf8 "\x7d" := by decide
    have hvariant : utf8 "pub enum Constraint \x7b" ∉ ps.map variantLine := by
      intro hmem
      obtain ⟨p, -, hp⟩ := List.mem_map.1 hmem
      rw [variantLine, List.append_assoc, List.append_assoc, List.append_assoc] at hp
      exact literal_ne_append ⟨_, _, rfl, rfl, by decide⟩ _ hp.symm
    simp [hvariant, hbrace, hblank]
  have hvariants : (ps.map variantLine).filterMap variant? = ps.map Predicate.typeName := by
    rw [List.filterMap_map, ← List.filterMap_eq_map]
    exact List.filterMap_congr fun p hp => variant?_variantLine (hps p hp)
  have hbrace : variant? (utf8 "\x7d") = none := by decide
  have hlast : variant? [] = none := by decide
  rw [OutputFile.variants, htop, rtakeWhile_append_cons hopening]
  simp [hvariants, hbrace, hlast]

/-- Two predicates clash in the enum exactly when their names have the same norm. -/
theorem variants_nodup_iff (o : Options) {ps : List Predicate} (hps : ∀ p ∈ ps, IsName p.name) :
    (constraint o ps).variants.Nodup ↔ (ps.map fun p => Camel.norm p.name).Nodup := by
  rw [variants_constraint o hps, List.Nodup, List.pairwise_map, List.pairwise_map]
  refine List.Pairwise.iff_of_mem fun hp hq => ?_
  exact not_congr (Camel.camel_eq_iff (hps _ hp) (hps _ hq))

end ModuleFiles

/-- **Type names**: two names have the same type name exactly when they have the same norm.  A type
name is a name itself, begins with an upper-case letter and has no underscore, and the norm can be
read off it.  So the variants of the constraint enum, which are the type names of the predicates of
an accepted text, are distinct exactly when the norms of the names are; and they are whenever the
names are distinct and made of lower-case words with single underscores between them. -/
theorem type_names_identify_norms :
    (∀ s t : Bytes, Identifier.parse s = .ok s → Identifier.parse t = .ok t →
      (camel s = camel t ↔ Camel.norm s = Camel.norm t)) ∧
    (∀ s : Bytes, Identifier.parse s = .ok s →
      Identifier.parse (camel s) = .ok (camel s) ∧
      (∃ b bs, camel s = b :: bs ∧ Camel.isUpper b = true) ∧ byte '_' ∉ camel s ∧
      Camel.uncamel (camel s) = Camel.norm s) ∧
    ∀ text ps, DeclarationFile.parse text = .ok ps → ∀ o : Options,
      ∃ builtins constraint root files,
        generate o ps = builtins :: constraint :: root :: files ∧
        constraint.path = utf8 "constraint.rs" ∧
        constraint.variants = ps.map (fun p => camel p.name) ∧
        (constraint.variants.Nodup ↔ (ps.map fun p => Camel.norm p.name).Nodup) ∧
        ((ps.map Predicate.name).Nodup → (∀ p ∈ ps, Camel.IsSnake p.name) →
          constraint.variants.Nodup) := by
  refine ⟨?_, ?_, ?_⟩
  · intro s t hs ht
    exact Camel.camel_eq_iff (parse_identifier_iff.1 hs) (parse_identifier_iff.1 ht)
  · intro s hs
    have hname := parse_identifier_iff.1 hs
    obtain ⟨hfirst, hunderscore⟩ := Camel.camel_shape hname
    exact ⟨parse_identifier_iff.2 (Camel.isName_camel hname), hfirst, hunderscore,
      Camel.uncamel_camel hname⟩
  · intro text ps hparse o
    have hps : ∀ p ∈ ps, IsName p.name := fun p hp => (isDeclarable_of_mem hparse p hp).name
    have hdistinct := ModuleFiles.variants_nodup_iff o hps
    refine ⟨_, _, _, _, rfl, rfl, ModuleFiles.variants_constraint o hps, hdistinct, ?_⟩
    intro hnames hsnake
    have hnorm : (ps.map fun p => Camel.norm p.name) = ps.map Predicate.name :=
      List.map_congr_left fun p hp => Camel.norm_of_isSnake (hsnake p hp)
    rwa [hdistinct, hnorm]

/-- The predicates of `predicate a_1(int: x)` and `predicate A1(int: x)`. -/
def clashingPredicates : List Predicate :=
  [utf8 "a_1", utf8 "A1"].map fun name =>
    ⟨name, [⟨ArgType.ofTarget "int" "Int" "types::Int" "int_from_expr", utf8 "x"⟩]⟩

/-- Their names differ in an underscore in front of a digit and in case, which are both lost, so they
clash in the enum. -/
theorem clashing_names :
    Identifier.parse (utf8 "a_1") = .ok (utf8 "a_1") ∧
      Identifier.parse (utf8 "A1") = .ok (utf8 "A1") ∧
      camel (utf8 "a_1") = camel (utf8 "A1") ∧
      Camel.uncamel (camel (utf8 "a_1")) = utf8 "a1" ∧
      DeclarationFile.parse (utf8 "predicate a_1(int: x)\npredicate A1(int: x)") =
        .ok clashingPredicates ∧
      ∃ builtins constraint root files,
        generate Options.standard clashingPredicates = builtins :: constraint :: root :: files ∧
          ¬ constraint.variants.Nodup := by
  have hfirst : Identifier.parse (utf8 "a_1") = .ok (utf8 "a_1") := by rfl
  have hsecond : Identifier.parse (utf8 "A1") = .ok (utf8 "A1") := by rfl
  have hnorm : Camel.norm (utf8 "a_1") = utf8 "a1" := by decide
  have hnorm' : Camel.norm (utf8 "A1") = utf8 "a1" := by decide
  have hparse : DeclarationFile.parse (utf8 "predicate a_1(int: x)\npredicate A1(int: x)") =
      .ok clashingPredicates := by rfl
  obtain ⟨hsame, hshape, hvariants⟩ := type_names_identify_norms
  obtain ⟨builtins, constraint, root, files, hfiles, -, -, hnodup, -⟩ :=
    hvariants _ _ hparse Options.standard
  refine ⟨hfirst, hsecond, (hsame _ _ hfirst hsecond).2 (hnorm.trans hnorm'.symm),
    (hshape _ hfirst).2.2.2.trans hnorm, hparse, builtins, constraint, root, files, hfiles, ?_⟩
  rw [hnodup]
  decide

end ZincBind

import Mathlib.Data.List.SplitBy
import ZincBind.Proofs.Delivery.Banners
import ZincBind.Proofs.Delivery.Survival
import ZincBind.Proofs.Emit.Blocks
import ZincBind.Proofs.Files.Cleaning

/-!
# ZincBind.Proofs.Delivery.Printed

Reading printed files back.  A stream is cut into lines and before each line that begins like a
banner; of a block, the banner says the path and the lines below it are the text (`decode?`).

A file comes back whatever its text is, as long as no line of it begins like a banner
(`decode?_flatMap_block`).  Generated files have no such line: their comments go on with a letter or
a third slash, and all other lines begin with something else (`unmarked_of_mem_generate`).
-/

namespace ZincBind

namespace Bytes

/-! ## Lines with their line feeds -/

/-- The lines of a text, each with the line feed that ends it. -/
def fullLines (bs : Bytes) : List Bytes := bs.splitBy fun b _ => b != byte '\n'

/-- Every line with a line feed behind it. -/
def ended (ls : List Bytes) : List Bytes := ls.map (· ++ [byte '\n'])

theorem flatten_ended (ls : List Bytes) : (ended ls).flatten = unlines ls :=
  List.flatMap_def.symm

theorem fullLines_cons {l : Bytes} (h : IsLine l) (rest : Bytes) :
    fullLines (l ++ [byte '\n'] ++ rest) = (l ++ [byte '\n']) :: fullLines rest := by
  have hcut : ∀ x ∈ (l ++ [byte '\n']).getLast?, ∀ y ∈ rest.head?, (x != byte '\n') = false := by
    simp
  have hbyte : ∀ b ∈ l, (b != byte '\n') = true := fun b hb =>
    bne_iff_ne.2 (ne_of_mem_of_not_mem hb h)
  have hinside : (l ++ [byte '\n']).Pairwise fun b _ => (b != byte '\n') = true :=
    List.pairwise_append.2 ⟨List.pairwise_of_forall_mem_list fun b hb _ _ => hbyte b hb,
      List.pairwise_singleton _ _, fun b hb _ _ => hbyte b hb⟩
  rw [fullLines, List.splitBy_append hcut, List.splitBy_of_isChain (by simp) hinside.isChain]
  rfl

/-- A text that begins with lines falls into them and what follows. -/
theorem fullLines_unlines_append {ls : List Bytes} (h : AreLines ls) (rest : Bytes) :
    fullLines (unlines ls ++ rest) = ended ls ++ fullLines rest := by
  induction ls with
  | nil => rfl
  | cons l ls ih =>
      obtain ⟨hl, hls⟩ := allLines_cons_iff.1 h
      have hfirst := fullLines_cons hl (unlines ls ++ rest)
      rw [ih hls] at hfirst
      simpa [ended] using hfirst

/-- The pieces between line feeds are the lines of the text with one more line feed. -/
theorem unlines_pieces (bs : Bytes) : unlines (pieces (byte '\n') bs) = bs ++ [byte '\n'] := by
  have hjoined : ∀ ls : List Bytes, ls ≠ [] → unlines ls = joined [byte '\n'] ls ++ [byte '\n'] := by
    intro ls hne
    fun_induction joined [byte '\n'] ls with
    | case1 => contradiction
    | case2 l => simp
    | case3 l m ls ih => simp [ih]
  rw [hjoined _ (pieces_ne_nil _ bs), joined_pieces]

end Bytes

open Bytes

namespace Print

/-! ## Reading a stream -/

/-- Whether a line begins like a banner: two slashes and a space, then a dash or a space. -/
def isMark (l : Bytes) : Bool := (after? (utf8 "// -") l).isSome || (after? (utf8 "//  ") l).isSome

/-- The path that a block names and the text below. -/
def readBlock? : List Bytes → Option (Bytes × Bytes)
  | [] => none
  | top :: below => do
    let banner ← between? (utf8 "// ") (utf8 "\n") top
    let path ← Banner.path? banner
    let content ← before? (utf8 "\n") below.flatten
    some (path, content)

/-- The paths and texts of a stream, which is cut before each line that begins like a banner. -/
def decode? (stream : Bytes) : Option (List (Bytes × Bytes)) :=
  ((fullLines stream).splitBy fun _ l => !isMark l).mapM readBlock?

/-- The line above a file. -/
def topLine (dir : Bytes) (f : OutputFile) : Bytes := utf8 "// " ++ Banner.render (destination dir f)

theorem block_eq_unlines (dir : Bytes) (f : OutputFile) :
    block dir f = unlines (topLine dir f :: f.readLines) := by
  have hfeed : utf8 "\n" = [byte '\n'] := rfl
  rw [unlines_cons, OutputFile.readLines, unlines_pieces, block, topLine, hfeed]
  simp

/-! ## Marks -/

theorem isMark_iff {l : Bytes} : isMark l = true ↔ utf8 "// -" <+: l ∨ utf8 "//  " <+: l := by
  have hafter : ∀ start : Bytes, (after? start l).isSome = true ↔ start <+: l := by
    intro start
    rw [Option.isSome_iff_exists]
    exact exists_congr fun rest => after?_eq_some_iff.trans eq_comm
  rw [isMark, Bool.or_eq_true, hafter, hafter]

/-- The line feed at its end does not make a line a mark. -/
theorem isMark_concat (l : Bytes) : isMark (l ++ [byte '\n']) = isMark l := by
  have hprefix : ∀ start : Bytes, byte '\n' ∉ start →
      (start <+: l ++ [byte '\n'] ↔ start <+: l) := by
    intro start hstart
    rw [List.prefix_concat_iff, or_iff_right]
    rintro rfl
    simp at hstart
  rw [Bool.eq_iff_iff, isMark_iff, isMark_iff, hprefix _ (by decide), hprefix _ (by decide)]

/-- Banners begin with a dash, or with a space if there is no room for one. -/
theorem isMark_topLine (dir : Bytes) (f : OutputFile) : isMark (topLine dir f) = true := by
  obtain ⟨left, right, hrender⟩ := Banner.exists_render_eq (destination dir f)
  rw [isMark_iff, topLine, hrender]
  cases left with
  | zero => exact Or.inr ⟨_, rfl⟩
  | succ left => exact Or.inl ⟨_, rfl⟩

theorem isLine_topLine {dir : Bytes} {f : OutputFile} (h : IsLine (destination dir f)) :
    IsLine (topLine dir f) := by
  obtain ⟨left, right, hrender⟩ := Banner.exists_render_eq (destination dir f)
  have hslashes : IsLine (utf8 "// ") := isLine_literal ⟨_, rfl, by decide⟩
  have hdash : byte '\n' ≠ byte '-' := by decide
  have hspace : byte '\n' ≠ byte ' ' := by decide
  rw [IsLine] at h hslashes
  simp [topLine, hrender, IsLine, List.mem_replicate, hslashes, hdash, hspace, h]

/-! ## Blocks -/

/-- Lines none of which begins like a banner. -/
abbrev Unmarked (ls : List Bytes) : Prop := AllLines (isMark · = false) ls

/-- The lines of a block, with their line feeds. -/
def blockLines (dir : Bytes) (f : OutputFile) : List Bytes := ended (topLine dir f :: f.readLines)

theorem blockLines_eq (dir : Bytes) (f : OutputFile) :
    blockLines dir f = (topLine dir f ++ [byte '\n']) :: ended f.readLines := rfl

/-- **A block** names its path and holds its text. -/
theorem readBlock?_blockLines (dir : Bytes) (f : OutputFile) :
    readBlock? (blockLines dir f) = some (destination dir f, f.content) := by
  have hfeed : utf8 "\n" = [byte '\n'] := rfl
  have htext : (ended f.readLines).flatten = f.content ++ [byte '\n'] := by
    rw [flatten_ended, OutputFile.readLines, unlines_pieces]
  rw [blockLines_eq, readBlock?, topLine, hfeed, List.append_assoc, between?_append, htext,
    before?_append]
  simp [Banner.path?_render]

/-- Printed blocks fall into their lines. -/
theorem fullLines_flatMap_block {dir : Bytes} {fs : List OutputFile}
    (h : ∀ f ∈ fs, IsLine (destination dir f)) :
    fullLines (fs.flatMap (block dir)) = fs.flatMap (blockLines dir) := by
  induction fs with
  | nil => rfl
  | cons f fs ih =>
      obtain ⟨hf, hfs⟩ := List.forall_mem_cons.1 h
      have hlines : AreLines (topLine dir f :: f.readLines) :=
        allLines_cons_iff.2 ⟨isLine_topLine hf, fun _ => not_mem_of_mem_pieces⟩
      rw [List.flatMap_cons, List.flatMap_cons, block_eq_unlines, fullLines_unlines_append hlines,
        ih hfs]
      rfl

/-- A block begins with its mark, and has no other if the text has none. -/
theorem opensWith_blockLines (dir : Bytes) {f : OutputFile} (h : Unmarked f.readLines) :
    OpensWith isMark (blockLines dir f) := by
  rw [blockLines_eq, opensWith_cons_iff, isMark_concat, isMark_topLine]
  refine ⟨rfl, List.forall_mem_map.2 fun l hl => ?_⟩
  rw [isMark_concat, h l hl]

/-- The lines of blocks fall into blocks again. -/
theorem splitBy_flatMap_blockLines {dir : Bytes} {fs : List OutputFile}
    (h : ∀ f ∈ fs, Unmarked f.readLines) :
    (fs.flatMap (blockLines dir)).splitBy (fun _ l => !isMark l) = fs.map (blockLines dir) := by
  rw [List.flatMap_def]
  exact splitBy_flatten (List.forall_mem_map.2 fun f hf => opensWith_blockLines dir (h f hf))

/-- **Streams** show what was printed: files whose lines do not begin like banners, at paths on one
line, are read back with their texts. -/
theorem decode?_flatMap_block {dir : Bytes} {fs : List OutputFile}
    (hpath : ∀ f ∈ fs, IsLine (destination dir f)) (hmark : ∀ f ∈ fs, Unmarked f.readLines) :
    decode? (fs.flatMap (block dir)) = some (fs.map fun f => (destination dir f, f.content)) := by
  rw [decode?, fullLines_flatMap_block hpath, splitBy_flatMap_blockLines hmark,
    Traversal.mapM_eq_some_iff, List.forall₂_map_left_iff, List.forall₂_map_right_iff,
    List.forall₂_same]
  exact fun f _ => readBlock?_blockLines dir f

/-! ## Generated files -/

theorem unmarked_of_beginIn {heads : Bytes} {ls : List Bytes} (h : BeginIn heads ls)
    (hslash : byte '/' ∉ heads) : Unmarked ls := by
  intro l hl
  have hdash : after? (utf8 "// -") l = none := (h l hl).after?_eq_none (decide_eq_true hslash)
  have hspace : after? (utf8 "//  ") l = none := (h l hl).after?_eq_none (decide_eq_true hslash)
  rw [isMark, hdash, hspace]
  rfl

theorem not_isMark_literal {s : String} (hdash : Clash "// -" s) (hspace : Clash "//  " s)
    (rest : Bytes) : isMark (utf8 s ++ rest) = false := by
  rw [isMark, after?_literal hdash, after?_literal hspace]
  rfl

theorem not_isMark_utf8 {s : String} (hdash : Clash "// -" s) (hspace : Clash "//  " s) :
    isMark (utf8 s) = false := by
  have h := not_isMark_literal hdash hspace []
  rwa [List.append_nil] at h

@[simp] theorem not_isMark_nil : isMark [] = false := rfl

/-- An attribute begins with a number sign. -/
theorem not_isMark_derive {o : Options} (ho : o.IsInline) : isMark o.derive = false := by
  obtain ⟨rest, hderive⟩ := ho.opening
  rw [hderive]
  exact not_isMark_literal ⟨_, _, rfl, rfl, by decide⟩ ⟨_, _, rfl, rfl, by decide⟩ rest

open PredicateFile in
/-- A predicate's file: the comment above it goes on with a letter, its documentation has three
slashes, and no other line begins with a slash. -/
theorem unmarked_emit {o : Options} (ho : o.IsInline) {p : Predicate} (hp : p.IsDeclarable) :
    Unmarked (p.emit o).readLines := by
  have himports := unmarked_of_beginIn (beginIn_importLines (Imports.groups o.crate p)) (by decide)
  have hfields := unmarked_of_beginIn (beginIn_fieldLines p.args) (by decide)
  have himpl := unmarked_of_beginIn (beginIn_implBody o.modelParam p) (by decide)
  have hlower := unmarked_of_beginIn (beginIn_lower p) (by decide)
  simp (disch := exact ⟨_, _, rfl, rfl, by decide⟩) only [readLines_emit_blocks ho hp, upper,
    preamble, OutputFile.header, docLines, declarationMark, allLines_append_iff, allLines_cons_iff,
    allLines_nil, not_isMark_nil, not_isMark_literal, not_isMark_utf8, not_isMark_derive ho,
    himports, hfields, himpl, hlower, and_self]

open ModuleFiles in
/-- The files for the whole list have no comments but the one above them. -/
theorem unmarked_aggregate {o : Options} (ho : o.IsInline) {ps : List Predicate}
    (hps : ∀ p ∈ ps, p.IsDeclarable) {f : OutputFile} (hf : f ∈ aggregate o ps) :
    Unmarked f.readLines := by
  simp only [aggregate, List.mem_cons, List.not_mem_nil, or_false] at hf
  obtain rfl | rfl | rfl := hf
  · simp (disch := exact ⟨_, _, rfl, rfl, by decide⟩) only [readLines_builtins hps, modLine,
      useLine, OutputFile.header, List.append_assoc, allLines_append_iff, allLines_cons_iff,
      allLines_map_iff, allLines_nil, not_isMark_nil, not_isMark_literal, not_isMark_utf8,
      implies_true, and_self]
  · simp (disch := exact ⟨_, _, rfl, rfl, by decide⟩) only [readLines_constraint ho hps,
      variantLine, OutputFile.header, List.append_assoc, allLines_append_iff, allLines_cons_iff,
      allLines_map_iff, allLines_nil, not_isMark_nil, not_isMark_literal, not_isMark_utf8,
      not_isMark_derive ho, implies_true, and_self]
  · decide

theorem unmarked_of_mem_generate {o : Options} (ho : o.IsInline) {ps : List Predicate}
    (hps : ∀ p ∈ ps, p.IsDeclarable) {f : OutputFile} (hf : f ∈ generate o ps) :
    Unmarked f.readLines := by
  cases List.mem_append.1 hf with
  | inl hf => exact unmarked_aggregate ho hps hf
  | inr hf =>
      obtain ⟨p, hp, rfl⟩ := List.mem_map.1 hf
      exact unmarked_emit ho (hps p hp)

/-- Below a directory on one line, generated files have paths on one line. -/
theorem isLine_destination {o : Options} {ps : List Predicate} (hps : ∀ p ∈ ps, p.IsDeclarable)
    {dir : Bytes} (hdir : IsLine dir) {f : OutputFile} (hf : f ∈ generate o ps) :
    IsLine (destination dir f) := by
  obtain ⟨dirs, stem, hfile⟩ := exists_isRustFile_of_mem_generate (fun p hp => (hps p hp).name) hf
  exact Path.not_mem_join (by decide) hdir (hfile.not_mem_path (by decide) (by decide))

/-- **Printing** can be taken back.  Let predicates of an accepted text be printed with accepted
settings and a directory, all without line feeds.  The stream is decoded to the path and the text of
each file; and a writer that takes `n` blocks fails exactly if there are more files, and has then
got a stream that is decoded to the first `n` of them. -/
theorem stream_decodes {text : Bytes} {ps : List Predicate}
    (hparse : DeclarationFile.parse text = .ok ps) {s : Settings} (hvalid : s.validate = .ok ())
    (hderive : byte '\n' ∉ s.options.derive) (hmodel : byte '\n' ∉ s.options.modelParam)
    {dir : Bytes} (hdir : byte '\n' ∉ dir) :
    ((run none dir (generate s.options ps)).2 = .ok () ∧
      decode? (run none dir (generate s.options ps)).1 =
        some ((generate s.options ps).map fun f => (Path.join dir f.path, f.content))) ∧
    ∀ n,
      ((run (some n) dir (generate s.options ps)).2 = .error closed ↔
        n < (generate s.options ps).length) ∧
      ((run (some n) dir (generate s.options ps)).2 = .ok () ↔
        (generate s.options ps).length ≤ n) ∧
      decode? (run (some n) dir (generate s.options ps)).1 =
        some (((generate s.options ps).map fun f => (Path.join dir f.path, f.content)).take n) := by
  have hinline := Options.isInline_of_validate hvalid hderive hmodel
  have hps := isDeclarable_of_mem hparse
  have hdecode : ∀ fs, fs ⊆ generate s.options ps → decode? (fs.flatMap (block dir)) =
      some (fs.map fun f => (Path.join dir f.path, f.content)) := fun fs hfs =>
    decode?_flatMap_block (fun f hf => isLine_destination hps hdir (hfs hf))
      fun f hf => unmarked_of_mem_generate hinline hps (hfs hf)
  refine ⟨?_, fun n => ?_⟩
  · rw [run_none]
    exact ⟨rfl, hdecode _ (List.Subset.refl _)⟩
  · rw [run_some, hdecode _ (List.take_subset n _), List.map_take]
    by_cases hlen : (generate s.options ps).length ≤ n
    · simp [hlen]
    · simp [hlen, Nat.not_le.1 hlen]

/-- Below a directory whose name begins with dashes and has a space, a writer that takes two blocks
of four has got the first two files. -/
theorem dashed_stream :
    DeclarationFile.parse (utf8 "predicate int_eq(int: a)") = .ok [Output.unary "int_eq"] ∧
      Settings.standard.validate = .ok () ∧
      (generate Settings.standard.options [Output.unary "int_eq"]).length = 4 ∧
      (run (some 2) (utf8 "-- out")
        (generate Settings.standard.options [Output.unary "int_eq"])).2 = .error closed ∧
      (decode? (run (some 2) (utf8 "-- out")
        (generate Settings.standard.options [Output.unary "int_eq"])).1).map (·.map Prod.fst) =
        some [utf8 "-- out/builtins/mod.rs", utf8 "-- out/constraint.rs"] := by
  have hparse : DeclarationFile.parse (utf8 "predicate int_eq(int: a)") =
      .ok [Output.unary "int_eq"] := by rfl
  have hvalid : Settings.standard.validate = .ok () := by rfl
  obtain ⟨-, hlimit⟩ := stream_decodes hparse hvalid (by decide) (by decide)
    (by decide : byte '\n' ∉ utf8 "-- out")
  obtain ⟨hfails, -, hdecode⟩ := hlimit 2
  refine ⟨hparse, hvalid, rfl, hfails.2 (by decide), ?_⟩
  rw [hdecode, Option.map_some, List.map_take, List.map_map]
  decide

end Print

end ZincBind

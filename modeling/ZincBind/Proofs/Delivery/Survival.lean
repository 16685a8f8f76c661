import ZincBind.Delivery.Output
import ZincBind.Proofs.Declaration.RoundTrip
import ZincBind.Proofs.Emit.UnitPaths
import ZincBind.Proofs.Files.Resolution

/-!
# ZincBind.Proofs.Delivery.Survival

What is found at the destinations of files after all of them have been written.  A place that no
later file goes to keeps what it has (`get?_of_writeFiles`), so the last file of a place can be
read back (`readFile_of_last`), and files at distinct paths all can (`readFile_of_nodup`).

For generated files this leaves one name: where a predicate is called `mod` its file goes over the
module of the builtins, and otherwise every file survives (`generated_survive_iff`).
-/

namespace ZincBind

namespace Output

open Bytes FileSystem Print

/-! ## One file, then the rest -/

theorem writeFiles_cons_eq_ok_iff {dir : Bytes} {fs fs' : FileSystem} {f : OutputFile}
    {rest : List OutputFile} :
    writeFiles dir fs (f :: rest) = (fs', .ok ()) ↔
      ∃ mid, fs.writeFile (destination dir f) f.content = .ok mid ∧
        writeFiles dir mid rest = (fs', .ok ()) := by
  rw [writeFiles_cons]
  cases fs.writeFile (destination dir f) f.content with
  | error e => simp
  | ok mid => simp

/-- Writing files keeps all directories. -/
theorem keepsDirectories_writeFiles {dir : Bytes} {fs fs' : FileSystem} {files : List OutputFile}
    (h : writeFiles dir fs files = (fs', .ok ())) : KeepsDirectories fs fs' := by
  induction files generalizing fs with
  | nil =>
      obtain rfl : fs = fs' := (Prod.mk.inj h).1
      exact KeepsDirectories.refl fs
  | cons f rest ih =>
      obtain ⟨mid, hf, hrest⟩ := writeFiles_cons_eq_ok_iff.1 h
      exact (keepsDirectories_writeFile hf).trans (ih hrest)

/-- **Frame**: a place no file goes to keeps what it has. -/
theorem get?_of_writeFiles {dir : Bytes} {fs fs' : FileSystem} {files : List OutputFile}
    {l : Location} (h : writeFiles dir fs files = (fs', .ok ()))
    (hl : ∀ f ∈ files, fs'.resolve (destination dir f) ≠ .ok l) :
    fs'.tree.get? l = fs.tree.get? l := by
  induction files generalizing fs with
  | nil =>
      obtain rfl : fs = fs' := (Prod.mk.inj h).1
      rfl
  | cons f rest ih =>
      obtain ⟨mid, hf, hrest⟩ := writeFiles_cons_eq_ok_iff.1 h
      have hkeep := ih hrest fun g hg => hl g (List.mem_cons_of_mem f hg)
      have hdirs := (keepsDirectories_writeFile hf).trans (keepsDirectories_writeFiles hrest)
      obtain ⟨loc, hloc, hnot, rfl⟩ := writeFile_eq_ok_iff.1 hf
      -- the file of this step is found at the same place after all of them
      have hne : l ≠ loc := by
        intro heq
        rw [← heq] at hloc
        exact hl f List.mem_cons_self (resolve_of_keepsDirectories hdirs hloc)
      rw [hkeep, FileSystem.get?_set hnot, if_neg hne]

/-- **Last file**: a file with no later one at its place is read back. -/
theorem readFile_of_last {dir : Bytes} {fs fs' : FileSystem} {f : OutputFile}
    {rest : List OutputFile} (h : writeFiles dir fs (f :: rest) = (fs', .ok ()))
    (hlast : ∀ l, fs'.resolve (destination dir f) = .ok l →
      ∀ g ∈ rest, fs'.resolve (destination dir g) ≠ .ok l) :
    fs'.readFile (destination dir f) = .ok f.content := by
  obtain ⟨mid, hf, hrest⟩ := writeFiles_cons_eq_ok_iff.1 h
  have hdirs := (keepsDirectories_writeFile hf).trans (keepsDirectories_writeFiles hrest)
  obtain ⟨loc, hloc, hnot, rfl⟩ := writeFile_eq_ok_iff.1 hf
  have hloc' := resolve_of_keepsDirectories hdirs hloc
  have hget := get?_of_writeFiles hrest (hlast loc hloc')
  rw [FileSystem.get?_set hnot, if_pos rfl] at hget
  exact readFile_eq_ok hloc' hget

/-- **Distinct paths**: files at plain paths, no two the same, are all read back. -/
theorem readFile_of_nodup {dir : Bytes} {fs fs' : FileSystem} {files : List OutputFile}
    (hplaced : ∀ f ∈ files, f.IsPlaced) (hnodup : (files.map OutputFile.path).Nodup)
    (h : writeFiles dir fs files = (fs', .ok ())) :
    ∀ f ∈ files, fs'.readFile (destination dir f) = .ok f.content := by
  induction files generalizing fs with
  | nil => simp
  | cons f rest ih =>
      rw [List.map_cons, List.nodup_cons] at hnodup
      obtain ⟨mid, -, hrest⟩ := writeFiles_cons_eq_ok_iff.1 h
      intro g hg
      cases List.mem_cons.1 hg with
      | inr hg => exact ih (fun x hx => hplaced x (List.mem_cons_of_mem f hx)) hnodup.2 hrest g hg
      | inl hg =>
          subst hg
          refine readFile_of_last h fun l hl x hx hxl => hnodup.1 ?_
          obtain ⟨names, hne, hplain, hpath⟩ := hplaced g List.mem_cons_self
          obtain ⟨names', hne', hplain', hpath'⟩ := hplaced x (List.mem_cons_of_mem g hx)
          rw [destination, hpath] at hl
          rw [destination, hpath'] at hxl
          obtain rfl := resolve_join_injective hne hne' hplain hplain' hl hxl
          rw [hpath, ← hpath']
          exact List.mem_map_of_mem hx

/-- Everything that writing can do: fail to make the directories, or make them and go on. -/
theorem write_cases (fs : FileSystem) (dir : Bytes) (files : List OutputFile) :
    (∃ after e, fs.makeDirectories (Path.join dir OutputFile.builtinsDir) = (after, .error e) ∧
      write fs dir files = (after, .error (.builtins e))) ∨
    ∃ mid, fs.makeDirectories (Path.join dir OutputFile.builtinsDir) = (mid, .ok ()) ∧
      write fs dir files = writeFiles dir mid files := by
  cases hmake : fs.makeDirectories (Path.join dir OutputFile.builtinsDir) with
  | mk mid result =>
      cases result with
      | error e => exact Or.inl ⟨mid, e, rfl, write_of_not_made hmake files⟩
      | ok u => exact Or.inr ⟨mid, rfl, write_of_made hmake files⟩

theorem exists_writeFiles_of_write {fs fs' : FileSystem} {dir : Bytes} {files : List OutputFile}
    (h : write fs dir files = (fs', .ok ())) :
    ∃ mid, writeFiles dir mid files = (fs', .ok ()) := by
  obtain ⟨_, _, -, hwrite⟩ | ⟨mid, -, hwrite⟩ := write_cases fs dir files
  · simp [hwrite] at h
  · exact ⟨mid, hwrite ▸ h⟩

/-! ## Generated files -/

/-- The predicates of an accepted file have names. -/
theorem isName_of_parse {text : Bytes} {ps : List Predicate}
    (h : DeclarationFile.parse text = .ok ps) : ∀ p ∈ ps, Grammar.IsName p.name :=
  fun p hp => (isDeclarable_of_mem h p hp).name

/-- A predicate called `mod` and the module of the builtins cannot both be read back: they go to
one place and say different things. -/
theorem not_both_survive {o : Options} {ps : List Predicate} {p : Predicate} (hp : p ∈ ps)
    (hplain : Grammar.IsName p.name) (hname : p.name = utf8 "mod") {fs : FileSystem} {dir : Bytes}
    (hmodule : fs.readFile (destination dir (ModuleFiles.builtins ps)) =
      .ok (ModuleFiles.builtins ps).content) :
    fs.readFile (destination dir (p.emit o)) ≠ .ok (p.emit o).content := by
  intro hfile
  have hpath : (p.emit o).path = (ModuleFiles.builtins ps).path := by
    rw [path_builtins]
    show PredicateFile.path p = utf8 "builtins/mod.rs"
    rw [path_eq hplain, hname]
    rfl
  rw [destination, hpath, ← destination, hmodule] at hfile
  exact builtins_content_ne_emit o (List.ne_nil_of_mem hp) p (Except.ok.inj hfile)

/-- **Survival**: the files generated for predicates with distinct names have distinct paths, and
survive being written with their own contents, exactly when no predicate is called `mod`. -/
theorem generated_survive_iff {text : Bytes} {ps : List Predicate} (o : Options)
    (hparse : DeclarationFile.parse text = .ok ps) (hnodup : (ps.map Predicate.name).Nodup) :
    (generate o ps).length = ps.length + 3 ∧
      (((generate o ps).map OutputFile.path).Nodup ↔ ∀ p ∈ ps, p.name ≠ utf8 "mod") ∧
      ∀ fs dir fs', write fs dir (generate o ps) = (fs', .ok ()) →
        ((∀ f ∈ generate o ps, fs'.readFile (destination dir f) = .ok f.content) ↔
          ∀ p ∈ ps, p.name ≠ utf8 "mod") := by
  have hps := isName_of_parse hparse
  have hpaths := paths_nodup_iff o hps hnodup
  refine ⟨length_generate o ps, hpaths, fun fs dir fs' h => ?_⟩
  constructor
  · intro hall p hp hname
    have hmodule : ModuleFiles.builtins ps ∈ generate o ps :=
      List.mem_append_left _ List.mem_cons_self
    have hfile : p.emit o ∈ generate o ps := List.mem_append_right _ (List.mem_map_of_mem hp)
    exact not_both_survive hp (hps p hp) hname (hall _ hmodule) (hall _ hfile)
  · intro hmod
    obtain ⟨mid, hmid⟩ := exists_writeFiles_of_write h
    exact readFile_of_nodup (fun f => isPlaced_of_mem_generate hps) (hpaths.2 hmod) hmid

/-- A root with one empty directory, `out`. -/
def emptyOut : FileSystem := ⟨⟨[([utf8 "out"], .directory)]⟩, []⟩

/-- The predicate of a name with one argument, `int: a`. -/
def unary (name : String) : Predicate :=
  ⟨utf8 name, [⟨ArgType.ofTarget "int" "Int" "types::Int" "int_from_expr", utf8 "a"⟩]⟩

/-- What is in the root after the files of one such predicate have been written to `out`. -/
def writtenOut (name : String) : FileSystem × Except WriteError Unit :=
  write emptyOut (utf8 "out") (generate Options.standard [unary name])

/-- A predicate of another name: all four files are found in `out` after they have been written. -/
theorem int_eq_survives :
    DeclarationFile.parse (utf8 "predicate int_eq(int: a)") = .ok [unary "int_eq"] ∧
      (writtenOut "int_eq").2 = .ok () ∧
      ∀ f ∈ generate Options.standard [unary "int_eq"],
        (writtenOut "int_eq").1.readFile (destination (utf8 "out") f) = .ok f.content := by
  have hparse : DeclarationFile.parse (utf8 "predicate int_eq(int: a)") = .ok [unary "int_eq"] := by
    rfl
  have hok : (writtenOut "int_eq").2 = .ok () := by rfl
  have hwrite : write emptyOut (utf8 "out") (generate Options.standard [unary "int_eq"]) =
      ((writtenOut "int_eq").1, .ok ()) := by
    rw [← hok, writtenOut]
  have hsurvive := (generated_survive_iff Options.standard hparse (List.nodup_singleton _)).2.2
  refine ⟨hparse, hok, (hsurvive _ _ _ hwrite).2 ?_⟩
  intro q hq
  rw [List.mem_singleton.1 hq]
  decide

/-- A predicate called `mod`: two of the four files have one path, and after writing it holds the
predicate's file instead of the module of the builtins. -/
theorem mod_overwrites_module :
    DeclarationFile.parse (utf8 "predicate mod(int: a)") = .ok [unary "mod"] ∧
      ([unary "mod"].map Predicate.name).Nodup ∧
      ¬ ((generate Options.standard [unary "mod"]).map OutputFile.path).Nodup ∧
      (writtenOut "mod").2 = .ok () ∧
      (writtenOut "mod").1.readFile (utf8 "out/builtins/mod.rs") =
        .ok ((unary "mod").emit Options.standard).content ∧
      ((unary "mod").emit Options.standard).content ≠
        (ModuleFiles.builtins [unary "mod"]).content := by
  refine ⟨by rfl, List.nodup_singleton _, by decide, by rfl, by rfl, ?_⟩
  exact (builtins_content_ne_emit Options.standard (List.cons_ne_nil _ []) (unary "mod")).symm

end Output

end ZincBind

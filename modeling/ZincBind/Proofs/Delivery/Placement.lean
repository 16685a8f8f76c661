import ZincBind.Proofs.Delivery.Survival
import ZincBind.Proofs.Files.Directories

/-!
# ZincBind.Proofs.Delivery.Placement

What an output directory holds after files have been written to it.  The directory is empty to
begin with (`Ready`, which is what the check of the directory establishes), and from then on it
holds exactly its directory for predicates and, at every path written to, the last file for that
path (`Holds`).

* `writeFile_of_fits`, `writeFile_of_too_long` — one file is written if and only if its name is
  not too long, and writing it keeps the description;
* `write_of_fits`, `write_of_too_long` — so all files are written, or those before the first name
  that is too long.
-/

namespace ZincBind

namespace Output

open Bytes FileSystem Print Grammar ZincBind.Path

/-! ## The last file for a place -/

/-- Of the files for a place, given by the names that lead to it, the last has this content. -/
def LastAt (files : List OutputFile) (names : List Bytes) (content : Bytes) : Prop :=
  ∃ earlier f later, files = earlier ++ f :: later ∧ pieces (byte '/') f.path = names ∧
    f.content = content ∧ ∀ g ∈ later, g.path ≠ f.path

theorem not_lastAt_nil (names : List Bytes) (content : Bytes) : ¬ LastAt [] names content := by
  rintro ⟨earlier, f, later, heq, -⟩
  simp at heq

theorem path_eq_iff_pieces_eq {f g : OutputFile} :
    f.path = g.path ↔ pieces (byte '/') f.path = pieces (byte '/') g.path := by
  constructor
  · intro h
    rw [h]
  · intro h
    rw [← joined_pieces (byte '/') f.path, h, joined_pieces]

/-- One more file is the last for its place, and changes nothing for the others. -/
theorem lastAt_concat_iff {files : List OutputFile} {f : OutputFile} {names : List Bytes}
    {content : Bytes} :
    LastAt (files ++ [f]) names content ↔
      if pieces (byte '/') f.path = names then f.content = content
      else LastAt files names content := by
  constructor
  · rintro ⟨earlier, g, later, heq, hplace, hcontent, hlater⟩
    induction later using List.reverseRecOn with
    | nil =>
        obtain ⟨-, hfg⟩ := List.append_inj' heq rfl
        obtain rfl := (List.cons.inj hfg).1
        rw [if_pos hplace]
        exact hcontent
    | append_singleton later x =>
        rw [← List.cons_append, ← List.append_assoc] at heq
        obtain ⟨hfiles, hfx⟩ := List.append_inj' heq rfl
        obtain rfl := (List.cons.inj hfx).1
        have hne : pieces (byte '/') f.path ≠ names := by
          intro heq
          rw [← hplace, ← path_eq_iff_pieces_eq] at heq
          exact hlater f (by simp) heq
        rw [if_neg hne]
        exact ⟨earlier, g, later, hfiles, hplace, hcontent, fun y hy =>
          hlater y (List.mem_append_left _ hy)⟩
  · intro h
    split at h
    · next hplace => exact ⟨files, f, [], rfl, hplace, h, by simp⟩
    · next hplace =>
      obtain ⟨earlier, g, later, rfl, hg, hcontent, hlater⟩ := h
      refine ⟨earlier, g, later ++ [f], by simp, hg, hcontent, fun y hy => ?_⟩
      rw [List.mem_append, List.mem_singleton] at hy
      obtain hy | rfl := hy
      · exact hlater y hy
      · rwa [Ne, path_eq_iff_pieces_eq, hg]

/-! ## An empty directory -/

/-- A directory, by its spelling and its place, with nothing below it. -/
structure Ready (fs : FileSystem) (dir : Bytes) (base : Location) : Prop where
  resolves : fs.resolve dir = .ok base
  directory : fs.tree.get? base = some .directory
  empty : ∀ names, names ≠ [] → fs.tree.get? (base ++ names) = none

theorem check_eq_ok_iff {fs : FileSystem} {dir : Bytes} :
    check fs dir = .ok () ↔
      ∃ base, fs.resolve dir = .ok base ∧ fs.tree.get? base = some .directory ∧
        fs.tree.isEmptyAt base = true := by
  unfold check stat isEmptyDirectory
  cases hres : fs.resolve dir with
  | error f =>
      by_cases hf : f = .missing
      · simp [hf]
      · simp [hf]
  | ok base =>
      cases hget : fs.tree.get? base with
      | none => simp [hget]
      | some e =>
          cases e with
          | file content => simp [hget]
          | directory =>
              by_cases hempty : fs.tree.isEmptyAt base = true
              · simp [hget, hempty]
              · simp [hget, hempty]

/-- **Checked directories**: in a well-formed tree a directory that passes the check is ready. -/
theorem exists_ready_of_check {fs : FileSystem} (ht : fs.tree.IsWellFormed) {dir : Bytes}
    (h : check fs dir = .ok ()) : ∃ base, Ready fs dir base := by
  obtain ⟨base, hres, hdir, hempty⟩ := check_eq_ok_iff.1 h
  exact ⟨base, hres, hdir, fun names => FileTree.get?_below_of_isEmptyAt ht hempty⟩

/-! ## A directory that holds files -/

/-- What writing leaves behind, if it began in one file system with nothing below a place: the
directory for predicates, the last file for every path written to, and everything outside as it
was. -/
structure Holds (before : FileSystem) (base : Location) (files : List OutputFile)
    (after : FileSystem) : Prop where
  cwd : after.cwd = before.cwd
  outside : ∀ l, ¬ base <+: l → after.tree.get? l = before.tree.get? l
  directory : ∀ names, after.tree.get? (base ++ names) = some .directory ↔
    names = [] ∨ names = [OutputFile.builtinsDir]
  file : ∀ names content, after.tree.get? (base ++ names) = some (.file content) ↔
    LastAt files names content

/-- A place below another, and a place in the tree after it has been set. -/
theorem get?_set_below {fs : FileSystem} {base : Location} {names : List Bytes} {e : Entry}
    (h : fs.tree.get? (base ++ names) ≠ some .directory) (names' : List Bytes) :
    (fs.set (base ++ names) e).tree.get? (base ++ names') =
      if names' = names then some e else fs.tree.get? (base ++ names') := by
  rw [FileSystem.get?_set h]
  simp only [List.append_cancel_left_eq]

theorem get?_set_outside {fs : FileSystem} {base : Location} {names : List Bytes} {e : Entry}
    (h : fs.tree.get? (base ++ names) ≠ some .directory) {l : Location} (hl : ¬ base <+: l) :
    (fs.set (base ++ names) e).tree.get? l = fs.tree.get? l := by
  have hne : l ≠ base ++ names := by
    intro heq
    rw [heq] at hl
    exact hl (List.prefix_append base names)
  rw [FileSystem.get?_set h, if_neg hne]

/-- Before the first file there is the directory for predicates. -/
theorem Ready.holds_nil {fs : FileSystem} {dir : Bytes} {base : Location}
    (h : Ready fs dir base) :
    Holds fs base [] (fs.set (base ++ [OutputFile.builtinsDir]) .directory) := by
  have hmissing := h.empty [OutputFile.builtinsDir] (by simp)
  have hnot : fs.tree.get? (base ++ [OutputFile.builtinsDir]) ≠ some .directory := by
    rw [hmissing]
    simp
  have hbelow : ∀ names, fs.tree.get? (base ++ names) =
      if names = [] then some .directory else none := by
    intro names
    split
    · next hnil => rw [hnil, List.append_nil, h.directory]
    · next hne => exact h.empty names hne
  refine ⟨rfl, fun l hl => get?_set_outside hnot hl, fun names => ?_, fun names content => ?_⟩
  · rw [get?_set_below hnot, hbelow]
    by_cases hdir : names = [OutputFile.builtinsDir]
    · simp [hdir]
    · simp [hdir]
  · rw [get?_set_below hnot, hbelow]
    by_cases hdir : names = [OutputFile.builtinsDir]
    · simp [hdir, not_lastAt_nil]
    · by_cases hnil : names = []
      · simp [hnil, not_lastAt_nil]
      · simp [hdir, hnil, not_lastAt_nil]

/-- No directory has gone. -/
theorem Holds.keepsDirectories {fs mid : FileSystem} {dir : Bytes} {base : Location}
    {files : List OutputFile} (h : Holds fs base files mid) (hready : Ready fs dir base) :
    KeepsDirectories fs mid := by
  refine ⟨h.cwd, fun l hl => ?_⟩
  by_cases hbelow : base <+: l
  · obtain ⟨names, rfl⟩ := hbelow
    by_cases hnil : names = []
    · exact (h.directory names).2 (Or.inl hnil)
    · rw [hready.empty names hnil] at hl
      contradiction
  · rwa [h.outside l hbelow]

/-- **One more file**: setting its place keeps the description. -/
theorem Holds.concat {fs mid : FileSystem} {base : Location} {files : List OutputFile}
    (h : Holds fs base files mid) {f : OutputFile} {names : List Bytes}
    (hplace : pieces (byte '/') f.path = names)
    (hnot : mid.tree.get? (base ++ names) ≠ some .directory) :
    Holds fs base (files ++ [f]) (mid.set (base ++ names) (.file f.content)) := by
  refine ⟨h.cwd, fun l hl => ?_, fun names' => ?_, fun names' content => ?_⟩
  · rw [get?_set_outside hnot hl, h.outside l hl]
  · rw [get?_set_below hnot]
    by_cases heq : names' = names
    · rw [if_pos heq, heq, ← h.directory names]
      simp [hnot]
    · rw [if_neg heq, h.directory names']
  · rw [get?_set_below hnot, lastAt_concat_iff, hplace]
    by_cases heq : names' = names
    · rw [if_pos heq, if_pos heq.symm]
      simp
    · rw [if_neg heq, if_neg (Ne.symm heq), h.file names' content]

/-! ## One file -/

theorem pieces_path {f : OutputFile} {dirs : List Bytes} {stem : Bytes}
    (hf : f.IsRustFile dirs stem) : pieces (byte '/') f.path = dirs ++ [stem ++ utf8 ".rs"] := by
  rw [hf.path]
  exact pieces_joined (by simp) fun n hn => (hf.isPlain n hn).slash_not_mem

/-- The place of a Rust file is never the directory for predicates. -/
theorem place_ne_directory (dirs : List Bytes) (stem : Bytes) :
    ¬ (dirs ++ [stem ++ utf8 ".rs"] = [] ∨
      dirs ++ [stem ++ utf8 ".rs"] = [OutputFile.builtinsDir]) := by
  rintro (h | h)
  · simp at h
  · have hlast := congrArg List.getLast? h
    rw [List.getLast?_concat, List.getLast?_singleton, Option.some.injEq] at hlast
    have hdot : byte '.' ∈ stem ++ utf8 ".rs" := List.mem_append_right _ (by decide)
    rw [hlast] at hdot
    exact absurd hdot (by decide)

/-- The directories on the way to a file are there, so only the length of its name counts. -/
theorem Holds.walk_names_eq_ok_iff {fs mid : FileSystem} {base l : Location}
    {files : List OutputFile} (h : Holds fs base files mid) {f : OutputFile} {dirs : List Bytes}
    {stem : Bytes} (hf : f.IsRustFile dirs stem) :
    walk mid.tree base (dirs ++ [stem ++ utf8 ".rs"]) = .ok l ↔
      stem.length ≤ 252 ∧ l = base ++ (dirs ++ [stem ++ utf8 ".rs"]) := by
  have hdirs : walk mid.tree base dirs = .ok (base ++ dirs) := by
    obtain rfl | rfl := hf.dirs_eq
    · rw [List.append_nil]
      rfl
    · have hbase := (h.directory []).2 (Or.inl rfl)
      rw [List.append_nil] at hbase
      exact walk_cons_eq_ok_iff.2
        ⟨_, (step_plain_eq_ok_iff isPlain_builtinsDir).2 ⟨hbase, by decide, rfl⟩, rfl⟩
  have hparent := (h.directory dirs).2 hf.dirs_eq
  have hlen : (stem ++ utf8 ".rs").length ≤ maxName ↔ stem.length ≤ 252 := by
    have hrs : (utf8 ".rs").length = 3 := rfl
    rw [List.length_append, hrs, maxName]
    omega
  rw [walk_concat_eq_ok_iff, hdirs, ← List.append_assoc, ← hlen]
  constructor
  · intro hwalk
    obtain ⟨mid', hmid', hstep⟩ := hwalk
    obtain rfl := Except.ok.inj hmid'
    exact ((step_plain_eq_ok_iff (isPlain_moduleName hf.isName)).1 hstep).2
  · intro hname
    exact ⟨base ++ dirs, rfl,
      (step_plain_eq_ok_iff (isPlain_moduleName hf.isName)).2 ⟨hparent, hname⟩⟩

/-- Where a Rust file goes: to its place, unless its name is too long. -/
theorem resolve_destination_eq_ok_iff {fs mid : FileSystem} {dir : Bytes} {base l : Location}
    {files : List OutputFile} (hready : Ready fs dir base) (h : Holds fs base files mid)
    {f : OutputFile} {dirs : List Bytes} {stem : Bytes} (hf : f.IsRustFile dirs stem) :
    mid.resolve (destination dir f) = .ok l ↔
      stem.length ≤ 252 ∧ l = base ++ (dirs ++ [stem ++ utf8 ".rs"]) := by
  have hkeep := h.keepsDirectories hready
  have henter : mid.enter dir = .ok base := by
    have hbase := enter_of_resolve hready.resolves
    rw [enter] at hbase ⊢
    rw [hkeep.cwd]
    exact walk_of_keepsDirectories hkeep hbase
  have hnul : 0 ∉ join dir f.path :=
    not_mem_join (by decide) (resolve_eq_ok_iff.1 hready.resolves).1
      (hf.not_mem_path (by decide) (by decide))
  rw [hf.path] at hnul
  rw [destination, hf.path, resolve_join_eq_ok_iff (by simp) hf.isPlain, ← h.walk_names_eq_ok_iff hf,
    henter]
  simp only [Except.ok.injEq, exists_eq_left', and_iff_right hnul]

/-- **One file**: a file whose name is not too long is written and held from then on. -/
theorem writeFile_of_fits {fs mid : FileSystem} {dir : Bytes} {base : Location}
    {files : List OutputFile} (hready : Ready fs dir base) (h : Holds fs base files mid)
    {f : OutputFile} {dirs : List Bytes} {stem : Bytes} (hf : f.IsRustFile dirs stem)
    (hlen : stem.length ≤ 252) :
    ∃ after, mid.writeFile (destination dir f) f.content = .ok after ∧
      Holds fs base (files ++ [f]) after := by
  have hres := (resolve_destination_eq_ok_iff hready h hf).2 ⟨hlen, rfl⟩
  have hnot : mid.tree.get? (base ++ (dirs ++ [stem ++ utf8 ".rs"])) ≠ some .directory := by
    rw [Ne, h.directory]
    exact place_ne_directory dirs stem
  exact ⟨_, writeFile_eq_ok_iff.2 ⟨_, hres, hnot, rfl⟩, h.concat (pieces_path hf) hnot⟩

/-- A file whose name is too long is not written. -/
theorem writeFile_of_too_long {fs mid : FileSystem} {dir : Bytes} {base : Location}
    {files : List OutputFile} (hready : Ready fs dir base) (h : Holds fs base files mid)
    {f : OutputFile} {dirs : List Bytes} {stem : Bytes} (hf : f.IsRustFile dirs stem)
    (hlen : 252 < stem.length) :
    ∃ e, mid.writeFile (destination dir f) f.content = .error e := by
  cases hwrite : mid.writeFile (destination dir f) f.content with
  | error e => exact ⟨e, rfl⟩
  | ok after =>
      obtain ⟨loc, hres, -, -⟩ := writeFile_eq_ok_iff.1 hwrite
      have hshort := ((resolve_destination_eq_ok_iff hready h hf).1 hres).1
      omega

/-! ## All files -/

/-- A Rust file whose name is not too long. -/
def Fits (f : OutputFile) : Prop := ∃ dirs stem, f.IsRustFile dirs stem ∧ stem.length ≤ 252

/-- A Rust file whose name is too long. -/
def IsTooLong (f : OutputFile) : Prop := ∃ dirs stem, f.IsRustFile dirs stem ∧ 252 < stem.length

theorem writeFiles_append_of_ok {dir : Bytes} {fs mid : FileSystem} {files : List OutputFile}
    (h : writeFiles dir fs files = (mid, .ok ())) (rest : List OutputFile) :
    writeFiles dir fs (files ++ rest) = writeFiles dir mid rest := by
  induction files generalizing fs with
  | nil =>
      obtain rfl : fs = mid := (Prod.mk.inj h).1
      rfl
  | cons f files ih =>
      obtain ⟨next, hf, hfiles⟩ := writeFiles_cons_eq_ok_iff.1 h
      rw [List.cons_append, writeFiles_cons, hf]
      exact ih hfiles

theorem writeFiles_of_fits {fs mid : FileSystem} {dir : Bytes} {base : Location}
    {files rest : List OutputFile} (hready : Ready fs dir base) (h : Holds fs base files mid)
    (hrest : ∀ f ∈ rest, Fits f) :
    ∃ after, writeFiles dir mid rest = (after, .ok ()) ∧ Holds fs base (files ++ rest) after := by
  induction rest generalizing files mid with
  | nil => exact ⟨mid, rfl, by rwa [List.append_nil]⟩
  | cons f rest ih =>
      obtain ⟨dirs, stem, hf, hlen⟩ := hrest f List.mem_cons_self
      obtain ⟨next, hnext, hholds⟩ := writeFile_of_fits hready h hf hlen
      obtain ⟨after, hafter, hall⟩ := ih hholds fun g hg => hrest g (List.mem_cons_of_mem f hg)
      rw [List.append_assoc, List.singleton_append] at hall
      exact ⟨after, writeFiles_cons_eq_ok_iff.2 ⟨next, hnext, hafter⟩, hall⟩

/-- Making the directory for predicates in an empty directory always succeeds. -/
theorem Ready.makeDirectories {fs : FileSystem} {dir : Bytes} {base : Location}
    (h : Ready fs dir base) :
    fs.makeDirectories (join dir OutputFile.builtinsDir) =
      (fs.set (base ++ [OutputFile.builtinsDir]) .directory, .ok ()) :=
  makeDirectories_join h.resolves h.directory isPlain_builtinsDir (by decide) (by decide)
    (h.empty _ (by simp))

theorem Ready.write_eq {fs : FileSystem} {dir : Bytes} {base : Location} (h : Ready fs dir base)
    (files : List OutputFile) :
    write fs dir files =
      writeFiles dir (fs.set (base ++ [OutputFile.builtinsDir]) .directory) files :=
  write_of_made h.makeDirectories files

/-- **All files**: files whose names are not too long are all written, and then the directory holds
exactly them. -/
theorem write_of_fits {fs : FileSystem} {dir : Bytes} {base : Location}
    (hready : Ready fs dir base) {files : List OutputFile} (hfiles : ∀ f ∈ files, Fits f) :
    ∃ after, write fs dir files = (after, .ok ()) ∧ Holds fs base files after := by
  rw [hready.write_eq]
  exact writeFiles_of_fits hready hready.holds_nil hfiles

/-- **The first name that is too long** ends the writing, and the directory holds exactly the files
before it. -/
theorem write_of_too_long {fs : FileSystem} {dir : Bytes} {base : Location}
    (hready : Ready fs dir base) {front : List OutputFile} {f : OutputFile}
    (hfront : ∀ g ∈ front, Fits g) (hf : IsTooLong f) (rest : List OutputFile) :
    ∃ after e, write fs dir (front ++ f :: rest) = (after, .error e) ∧
      Holds fs base front after := by
  obtain ⟨after, hafter, hholds⟩ := writeFiles_of_fits hready hready.holds_nil hfront
  obtain ⟨dirs, stem, hrust, hlen⟩ := hf
  obtain ⟨e, he⟩ := writeFile_of_too_long hready hholds hrust hlen
  refine ⟨after, .file (destination dir f) e, ?_, hholds⟩
  rw [hready.write_eq, writeFiles_append_of_ok hafter, writeFiles_cons, he]

/-! ## Generated files -/

theorem fits_of_mem_aggregate {o : Options} {ps : List Predicate} {f : OutputFile}
    (hf : f ∈ aggregate o ps) : Fits f := by
  obtain ⟨dirs, stem, hfile, hlen⟩ := exists_isRustFile_of_mem_aggregate hf
  exact ⟨dirs, stem, hfile, by omega⟩

/-- The files for the whole list fit, and so do those of predicates with names that are not too
long. -/
theorem fits_of_mem {o : Options} {ps front : List Predicate}
    (hfront : ∀ p ∈ front, IsName p.name ∧ p.name.length ≤ 252) :
    ∀ f ∈ aggregate o ps ++ front.map (Predicate.emit o), Fits f := by
  intro f hf
  cases List.mem_append.1 hf with
  | inl hf => exact fits_of_mem_aggregate hf
  | inr hf =>
      obtain ⟨p, hp, rfl⟩ := List.mem_map.1 hf
      exact ⟨_, _, isRustFile_emit o (hfront p hp).1, (hfront p hp).2⟩

end Output

end ZincBind

import ZincBind.Proofs.Delivery.Placement

/-!
# ZincBind.Proofs.Delivery.Repetition

Writing the same files a second time.  Whatever the tree, the directory and the paths of the files
are, the second time ends like the first and changes nothing (`write_again`).

Writing never takes a directory away and never makes one after the first file, so files can be
written one after another exactly when each of them can be written on its own, and then they are
put at fixed places (`writeFiles_eq_ok_iff`).  Putting entries at places twice is the same as once
(`setAll_setAll`), also where a place occurs more than once.  Where writing stops, it stops at the
same file again, for it has left behind what the files before it leave (`writeFiles_eq_error_iff`);
the directories above the files are made in the same way (`makeAll_again`).
-/

namespace ZincBind

namespace FileTree

/-! ## Putting entries at places -/

/-- A place that the tree has an entry for. -/
def Has (t : FileTree) (loc : Location) : Prop := loc ∈ t.entries.map Prod.fst

/-- Put entries at places in order. -/
def setAll (t : FileTree) (puts : List (Location × Entry)) : FileTree :=
  puts.foldl (fun t put => t.set put.1 put.2) t

theorem mem_keys_setEntry {loc l : Location} {e : Entry} {es : List (Location × Entry)} :
    l ∈ (setEntry loc e es).map Prod.fst ↔ l = loc ∨ l ∈ es.map Prod.fst := by
  induction es with
  | nil => simp [setEntry]
  | cons x xs ih =>
      obtain ⟨k, f⟩ := x
      rw [setEntry]
      by_cases hk : k = loc
      · simp [hk]
      · rw [if_neg hk, List.map_cons, List.map_cons, List.mem_cons, List.mem_cons, ih]
        exact or_left_comm

theorem has_set_iff {t : FileTree} {loc l : Location} {e : Entry} :
    (t.set loc e).Has l ↔ l = loc ∨ t.Has l := mem_keys_setEntry

/-- Of two entries for a place the later one stays. -/
theorem set_set (t : FileTree) (loc : Location) (e f : Entry) :
    (t.set loc e).set loc f = t.set loc f := by
  have key : ∀ es, setEntry loc f (setEntry loc e es) = setEntry loc f es := by
    intro es
    induction es with
    | nil => simp [setEntry]
    | cons x xs ih =>
        obtain ⟨k, g⟩ := x
        by_cases hk : k = loc
        · simp [setEntry, hk]
        · simp [setEntry, hk, ih]
  simp only [set, key]

/-- Where one of two places is there already, the order in which they are set does not matter. -/
theorem set_comm {t : FileTree} {l m : Location} (hne : l ≠ m) (hm : t.Has m) (e f : Entry) :
    (t.set l e).set m f = (t.set m f).set l e := by
  have key : ∀ es : List (Location × Entry), m ∈ es.map Prod.fst →
      setEntry m f (setEntry l e es) = setEntry l e (setEntry m f es) := by
    intro es
    induction es with
    | nil => simp
    | cons x xs ih =>
        obtain ⟨k, g⟩ := x
        intro hmem
        by_cases hl : k = l
        · subst hl
          simp [setEntry, hne]
        · by_cases hk : k = m
          · subst hk
            simp [setEntry, hl]
          · have hrest : m ∈ xs.map Prod.fst := by simpa [Ne.symm hk] using hmem
            simp [setEntry, hl, hk, ih hrest]
  simp only [set, key t.entries hm]

theorem setAll_cons (t : FileTree) (put : Location × Entry) (puts : List (Location × Entry)) :
    t.setAll (put :: puts) = (t.set put.1 put.2).setAll puts := rfl

theorem setAll_concat (t : FileTree) (puts : List (Location × Entry)) (put : Location × Entry) :
    t.setAll (puts ++ [put]) = (t.setAll puts).set put.1 put.2 := by
  simp [setAll]

theorem has_setAll_of_has {t : FileTree} {l : Location} (h : t.Has l)
    (puts : List (Location × Entry)) : (t.setAll puts).Has l := by
  induction puts generalizing t with
  | nil => exact h
  | cons put puts ih => exact ih (has_set_iff.2 (Or.inr h))

theorem has_setAll {t : FileTree} {puts : List (Location × Entry)} :
    ∀ put ∈ puts, (t.setAll puts).Has put.1 := by
  induction puts generalizing t with
  | nil => simp
  | cons put puts ih =>
      intro x hx
      cases List.mem_cons.1 hx with
      | inl hx =>
          rw [hx]
          exact has_setAll_of_has (has_set_iff.2 (Or.inl rfl)) puts
      | inr hx => exact ih x hx

/-- An entry that is put at its place in the end need not be there before, as long as all other
places are. -/
theorem setAll_set_absorb {t : FileTree} {puts : List (Location × Entry)}
    (h : ∀ put ∈ puts, t.Has put.1) (loc : Location) (e : Entry) :
    ((t.set loc e).setAll puts).set loc e = (t.setAll puts).set loc e := by
  induction puts generalizing t with
  | nil => exact set_set t loc e e
  | cons put puts ih =>
      have hput := h put List.mem_cons_self
      rw [setAll_cons, setAll_cons]
      by_cases hloc : loc = put.1
      · rw [hloc, set_set]
      · rw [set_comm hloc hput]
        exact ih fun x hx => has_set_iff.2 (Or.inr (h x (List.mem_cons_of_mem put hx)))

/-- **Twice is once**: putting the same entries at their places again changes nothing. -/
theorem setAll_setAll (t : FileTree) (puts : List (Location × Entry)) :
    (t.setAll puts).setAll puts = t.setAll puts := by
  induction puts using List.reverseRecOn with
  | nil => rfl
  | append_singleton puts put ih =>
      rw [setAll_concat, setAll_concat, setAll_set_absorb has_setAll, ih]

end FileTree

namespace FileSystem

/-! ## Making directories -/

/-- A path that leads to a directory. -/
def HasDirectory (fs : FileSystem) (path : Bytes) : Prop :=
  ∃ loc, fs.resolve path = .ok loc ∧ fs.tree.get? loc = some .directory

theorem HasDirectory.of_keepsDirectories {fs fs' : FileSystem} {path : Bytes}
    (h : fs.HasDirectory path) (hk : KeepsDirectories fs fs') : fs'.HasDirectory path := by
  obtain ⟨loc, hres, hdir⟩ := h
  exact ⟨loc, resolve_of_keepsDirectories hk hres, hk.directory loc hdir⟩

/-- Making a directory keeps those that are there, and leaves one where its path leads. -/
theorem makeDirectory_eq_ok {fs fs' : FileSystem} {path : Bytes}
    (h : fs.makeDirectory path = .ok fs') : KeepsDirectories fs fs' ∧ fs'.HasDirectory path := by
  unfold makeDirectory at h
  cases hres : fs.resolve path with
  | error f => simp [hres] at h
  | ok loc =>
      cases hget : fs.tree.get? loc with
      | some e =>
          cases e with
          | file content => simp [hres, hget] at h
          | directory =>
              simp only [hres, hget, Except.ok.injEq] at h
              subst h
              exact ⟨KeepsDirectories.refl fs, loc, hres, hget⟩
      | none =>
          simp only [hres, hget, Except.ok.injEq] at h
          subst h
          have hfree : fs.tree.get? loc ≠ some .directory := by simp [hget]
          have hk := keepsDirectories_set hfree .directory
          refine ⟨hk, loc, resolve_of_keepsDirectories hk hres, ?_⟩
          rw [get?_set hfree, if_pos rfl]

theorem makeAll_cons_eq_ok_iff {fs fs' : FileSystem} {path : Bytes} {paths : List Bytes} :
    fs.makeAll (path :: paths) = (fs', .ok ()) ↔
      ∃ mid, fs.makeDirectory path = .ok mid ∧ mid.makeAll paths = (fs', .ok ()) := by
  rw [makeAll]
  cases fs.makeDirectory path with
  | error e => simp
  | ok mid => simp

theorem makeAll_eq_ok {fs fs' : FileSystem} {paths : List Bytes}
    (h : fs.makeAll paths = (fs', .ok ())) :
    KeepsDirectories fs fs' ∧ ∀ path ∈ paths, fs'.HasDirectory path := by
  induction paths generalizing fs with
  | nil =>
      obtain rfl : fs = fs' := (Prod.mk.inj h).1
      exact ⟨KeepsDirectories.refl fs, by simp⟩
  | cons path paths ih =>
      obtain ⟨mid, hpath, hpaths⟩ := makeAll_cons_eq_ok_iff.1 h
      obtain ⟨hk, hdir⟩ := makeDirectory_eq_ok hpath
      obtain ⟨hk', hdirs⟩ := ih hpaths
      exact ⟨hk.trans hk', List.forall_mem_cons.2 ⟨hdir.of_keepsDirectories hk', hdirs⟩⟩

/-- Where making directories stops, those before have been made. -/
theorem makeAll_eq_error {fs fs' : FileSystem} {paths : List Bytes} {e : PathError}
    (h : fs.makeAll paths = (fs', .error e)) :
    ∃ front path rest, paths = front ++ path :: rest ∧ fs.makeAll front = (fs', .ok ()) ∧
      fs'.makeDirectory path = .error e := by
  induction paths generalizing fs with
  | nil => simp [makeAll] at h
  | cons path paths ih =>
      rw [makeAll] at h
      cases hpath : fs.makeDirectory path with
      | error e' =>
          simp only [hpath, Prod.mk.injEq, Except.error.injEq] at h
          obtain ⟨rfl, rfl⟩ := h
          exact ⟨[], path, paths, rfl, rfl, hpath⟩
      | ok mid =>
          simp only [hpath] at h
          obtain ⟨front, stop, rest, rfl, hfront, hstop⟩ := ih h
          exact ⟨path :: front, stop, rest, rfl,
            makeAll_cons_eq_ok_iff.2 ⟨mid, hpath, hfront⟩, hstop⟩

/-- Directories that have been made need not be made again, as long as none goes away. -/
theorem makeAll_of_keepsDirectories {fs mid after : FileSystem} {paths : List Bytes}
    (h : fs.makeAll paths = (mid, .ok ())) (hk : KeepsDirectories mid after)
    (rest : List Bytes) : after.makeAll (paths ++ rest) = after.makeAll rest :=
  makeAll_append_of_directories
    (fun path hpath => ((makeAll_eq_ok h).2 path hpath).of_keepsDirectories hk) rest

/-- **Directories again**: making directories a second time ends like the first. -/
theorem makeAll_again {fs fs' : FileSystem} {paths : List Bytes} {result : Except PathError Unit}
    (h : fs.makeAll paths = (fs', result)) : fs'.makeAll paths = (fs', result) := by
  cases result with
  | ok u =>
      have hrest := makeAll_of_keepsDirectories h (KeepsDirectories.refl fs') []
      rwa [List.append_nil] at hrest
  | error e =>
      obtain ⟨front, path, rest, rfl, hfront, hpath⟩ := makeAll_eq_error h
      rw [makeAll_of_keepsDirectories hfront (KeepsDirectories.refl fs'), makeAll, hpath]

end FileSystem

namespace Output

open FileSystem Print

/-! ## Writing files -/

/-- A file that can be written to a place. -/
structure Lands (dir : Bytes) (fs : FileSystem) (f : OutputFile) (loc : Location) : Prop where
  resolves : fs.resolve (destination dir f) = .ok loc
  free : fs.tree.get? loc ≠ some .directory

/-- What files put at the places they land on. -/
def puts (files : List OutputFile) (locs : List Location) : List (Location × Entry) :=
  files.zipWith (fun f loc => (loc, .file f.content)) locs

/-- Only directories decide where a file lands. -/
theorem Lands.of_keepsDirectories {dir : Bytes} {fs fs' : FileSystem} {f : OutputFile}
    {loc : Location} (h : Lands dir fs f loc) (hk : KeepsDirectories fs fs')
    (hk' : KeepsDirectories fs' fs) : Lands dir fs' f loc :=
  ⟨resolve_of_keepsDirectories hk h.resolves, fun hdir => h.free (hk'.directory loc hdir)⟩

/-- Writing a file makes no directory. -/
theorem keepsDirectories_of_set_file {fs : FileSystem} {loc : Location}
    (h : fs.tree.get? loc ≠ some .directory) (content : Bytes) :
    KeepsDirectories (fs.set loc (.file content)) fs := by
  refine ⟨rfl, fun l hl => ?_⟩
  rw [FileSystem.get?_set h] at hl
  split at hl
  · simp at hl
  · exact hl

theorem lands_set_iff {dir : Bytes} {fs : FileSystem} {loc : Location}
    (h : fs.tree.get? loc ≠ some .directory) (content : Bytes) {f : OutputFile} {l : Location} :
    Lands dir (fs.set loc (.file content)) f l ↔ Lands dir fs f l := by
  have hk := keepsDirectories_set h (.file content)
  have hk' := keepsDirectories_of_set_file h content
  exact ⟨fun hl => hl.of_keepsDirectories hk' hk, fun hl => hl.of_keepsDirectories hk hk'⟩

/-- **Each on its own**: files are written if each of them lands on some place in the tree as it is
before the first, and then they are put there. -/
theorem writeFiles_eq_ok_iff {dir : Bytes} {fs fs' : FileSystem} {files : List OutputFile} :
    writeFiles dir fs files = (fs', .ok ()) ↔
      ∃ locs, List.Forall₂ (Lands dir fs) files locs ∧
        fs' = { fs with tree := fs.tree.setAll (puts files locs) } := by
  induction files generalizing fs with
  | nil =>
      simp only [writeFiles_nil, Prod.mk.injEq, and_true, List.forall₂_nil_left_iff, exists_eq_left]
      exact eq_comm
  | cons f rest ih =>
      simp only [writeFiles_cons_eq_ok_iff, writeFile_eq_ok_iff, List.forall₂_cons_left_iff]
      constructor
      · rintro ⟨_, ⟨loc, hres, hfree, rfl⟩, hrest⟩
        obtain ⟨locs, hlands, rfl⟩ := ih.1 hrest
        refine ⟨loc :: locs, ⟨loc, locs, ⟨hres, hfree⟩, ?_, rfl⟩, rfl⟩
        exact hlands.imp fun g l => (lands_set_iff hfree f.content).1
      · rintro ⟨_, ⟨loc, locs, hland, hlands, rfl⟩, rfl⟩
        refine ⟨_, ⟨loc, hland.resolves, hland.free, rfl⟩, ih.2 ⟨locs, ?_, rfl⟩⟩
        exact hlands.imp fun g l => (lands_set_iff hland.free f.content).2

/-- Writing files makes no directory. -/
theorem keepsDirectories_of_writeFiles {dir : Bytes} {fs fs' : FileSystem}
    {files : List OutputFile} (h : writeFiles dir fs files = (fs', .ok ())) :
    KeepsDirectories fs' fs := by
  induction files generalizing fs with
  | nil =>
      obtain rfl : fs = fs' := (Prod.mk.inj h).1
      exact KeepsDirectories.refl fs
  | cons f rest ih =>
      obtain ⟨mid, hf, hrest⟩ := writeFiles_cons_eq_ok_iff.1 h
      obtain ⟨loc, -, hfree, rfl⟩ := writeFile_eq_ok_iff.1 hf
      exact (ih hrest).trans (keepsDirectories_of_set_file hfree f.content)

/-- **Files again**: files that have been written are written again without any change. -/
theorem writeFiles_again {dir : Bytes} {fs fs' : FileSystem} {files : List OutputFile}
    (h : writeFiles dir fs files = (fs', .ok ())) :
    writeFiles dir fs' files = (fs', .ok ()) := by
  have hk := keepsDirectories_writeFiles h
  have hk' := keepsDirectories_of_writeFiles h
  obtain ⟨locs, hlands, rfl⟩ := writeFiles_eq_ok_iff.1 h
  refine writeFiles_eq_ok_iff.2 ⟨locs, ?_, ?_⟩
  · exact hlands.imp fun f loc hland => hland.of_keepsDirectories hk hk'
  · rw [FileTree.setAll_setAll]

/-- **Where writing stops**: the files before are written, and the next one cannot be. -/
theorem writeFiles_eq_error_iff {dir : Bytes} {fs fs' : FileSystem} {files : List OutputFile}
    {w : WriteError} :
    writeFiles dir fs files = (fs', .error w) ↔
      ∃ front f rest e, files = front ++ f :: rest ∧ writeFiles dir fs front = (fs', .ok ()) ∧
        fs'.writeFile (destination dir f) f.content = .error e ∧
        w = .file (destination dir f) e := by
  constructor
  · intro h
    induction files generalizing fs with
    | nil => simp at h
    | cons f rest ih =>
        rw [writeFiles_cons] at h
        cases hf : fs.writeFile (destination dir f) f.content with
        | error e =>
            simp only [hf, Prod.mk.injEq, Except.error.injEq] at h
            obtain ⟨rfl, rfl⟩ := h
            exact ⟨[], f, rest, e, rfl, rfl, hf, rfl⟩
        | ok mid =>
            simp only [hf] at h
            obtain ⟨front, g, back, e, rfl, hfront, hg, hw⟩ := ih h
            exact ⟨f :: front, g, back, e, rfl,
              writeFiles_cons_eq_ok_iff.2 ⟨mid, hf, hfront⟩, hg, hw⟩
  · rintro ⟨front, f, rest, e, rfl, hfront, hf, rfl⟩
    rw [writeFiles_append_of_ok hfront, writeFiles_cons, hf]

/-! ## Directories, then files -/

/-- The directories for files are there until the end, so a second time begins with the files. -/
theorem write_of_keepsDirectories {fs mid after : FileSystem} {dir : Bytes}
    (hmake : fs.makeDirectories (Path.join dir OutputFile.builtinsDir) = (mid, .ok ()))
    (hk : KeepsDirectories mid after) (files : List OutputFile) :
    write after dir files = writeFiles dir after files := by
  have hagain : after.makeDirectories (Path.join dir OutputFile.builtinsDir) = (after, .ok ()) := by
    have hrest := makeAll_of_keepsDirectories hmake hk []
    rwa [List.append_nil] at hrest
  exact write_of_made hagain files

/-- **Twice**: writing a second time ends like the first and leaves the tree as it is. -/
theorem write_write (fs : FileSystem) (dir : Bytes) (files : List OutputFile) :
    write (write fs dir files).1 dir files = write fs dir files := by
  obtain ⟨after, e, hmake, hwrite⟩ | ⟨mid, hmake, hwrite⟩ := write_cases fs dir files
  · have hagain : after.makeDirectories (Path.join dir OutputFile.builtinsDir) =
        (after, .error e) := makeAll_again hmake
    rw [hwrite, write_of_not_made hagain]
  · rw [hwrite]
    cases hfiles : writeFiles dir mid files with
    | mk after result =>
        cases result with
        | ok u =>
            rw [write_of_keepsDirectories hmake (keepsDirectories_writeFiles hfiles)]
            exact writeFiles_again hfiles
        | error w =>
            obtain ⟨front, f, rest, e, rfl, hfront, hf, rfl⟩ := writeFiles_eq_error_iff.1 hfiles
            rw [write_of_keepsDirectories hmake (keepsDirectories_writeFiles hfront)]
            exact writeFiles_eq_error_iff.2
              ⟨front, f, rest, e, rfl, writeFiles_again hfront, hf, rfl⟩

/-- **Stopped**: if writing stops at a file, a write of the files before it succeeds with the same
tree, and one more file stops it. -/
theorem exists_stop_of_write_error {fs after : FileSystem} {dir path : Bytes}
    {files : List OutputFile} {e : PathError}
    (h : write fs dir files = (after, .error (.file path e))) :
    ∃ k f, files[k]? = some f ∧ path = destination dir f ∧
      write fs dir (files.take k) = (after, .ok ()) ∧
      write fs dir (files.take (k + 1)) = (after, .error (.file path e)) := by
  obtain ⟨_, _, -, hwrite⟩ | ⟨mid, hmake, -⟩ := write_cases fs dir files
  · simp [hwrite] at h
  · have hstart : ∀ gs, write fs dir gs = writeFiles dir mid gs := write_of_made hmake
    rw [hstart] at h
    obtain ⟨front, f, rest, e, rfl, hfront, hf, hw⟩ := writeFiles_eq_error_iff.1 h
    have hbefore : (front ++ f :: rest).take front.length = front := List.take_left' rfl
    have hnext : (front ++ f :: rest).take (front.length + 1) = front ++ [f] := by
      rw [List.append_cons, List.take_left' (by simp)]
    refine ⟨front.length, f, by simp, (WriteError.file.inj hw).1, ?_, ?_⟩
    · rw [hstart, hbefore, hfront]
    · rw [hstart, hnext]
      exact writeFiles_eq_error_iff.2 ⟨front, f, [], e, rfl, hfront, hf, hw⟩

/-- **Writing again**: whatever the tree, the directory and the files are, writing them a second
time ends like the first, with the same error at the same path if there was one, and leaves the tree
as it is.  If the first time stops at a file, it leaves what a successful write of the files before
it leaves. -/
theorem write_again (fs : FileSystem) (dir : Bytes) (files : List OutputFile) :
    write (write fs dir files).1 dir files = write fs dir files ∧
      ∀ path e, (write fs dir files).2 = .error (.file path e) →
        ∃ k f, files[k]? = some f ∧ path = destination dir f ∧
          write fs dir (files.take k) = ((write fs dir files).1, .ok ()) ∧
          write fs dir (files.take (k + 1)) = ((write fs dir files).1, .error (.file path e)) :=
  ⟨write_write fs dir files, fun _ _ h => exists_stop_of_write_error (Prod.ext rfl h)⟩

/-- Files that go to one place by two paths, below that place, and beside it. -/
def tangled : List OutputFile :=
  [⟨utf8 "../out/a", utf8 "1"⟩, ⟨utf8 "a", utf8 "2"⟩, ⟨utf8 "a/b", utf8 "3"⟩, ⟨utf8 "c", utf8 "4"⟩]

/-- Writing stops at the third of them both times, and the second of them stays. -/
theorem tangled_again :
    (write emptyOut (utf8 "out/.") tangled).2 =
        .error (.file (utf8 "out/a/b") ⟨.open, utf8 "out/a/b", .notDirectory⟩) ∧
      (write emptyOut (utf8 "out/.") tangled).1.readFile (utf8 "out/a") = .ok (utf8 "2") ∧
      write (write emptyOut (utf8 "out/.") tangled).1 (utf8 "out/.") tangled =
        write emptyOut (utf8 "out/.") tangled ∧
      ∃ k, write emptyOut (utf8 "out/.") (tangled.take k) =
        ((write emptyOut (utf8 "out/.") tangled).1, .ok ()) := by
  have hstop : (write emptyOut (utf8 "out/.") tangled).2 =
      .error (.file (utf8 "out/a/b") ⟨.open, utf8 "out/a/b", .notDirectory⟩) := by rfl
  obtain ⟨hagain, hbefore⟩ := write_again emptyOut (utf8 "out/.") tangled
  obtain ⟨k, _, -, -, hk, -⟩ := hbefore _ _ hstop
  exact ⟨hstop, by rfl, hagain, k, hk⟩

end Output

end ZincBind

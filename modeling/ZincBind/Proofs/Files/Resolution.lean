import ZincBind.Files.System
import ZincBind.Proofs.Files.Paths

/-!
# ZincBind.Proofs.Files.Resolution

Where paths lead, and what of it writing can change.  A walk looks at the directories it passes
and at nothing else, so a path that leads somewhere still leads there in every tree that has these
directories (`resolve_of_keepsDirectories`).  Writing a file keeps all directories
(`keepsDirectories_writeFile`).

Plain names below one directory lead to one place only if they are the same
(`resolve_join_injective`).
-/

namespace ZincBind

namespace FileSystem

open Bytes ZincBind.Path

/-! ## Walking -/

/-- A step from a directory does not depend on the rest of the tree. -/
theorem step_of_directory {t t' : FileTree} {loc : Location} (h : t.get? loc = some .directory)
    (h' : t'.get? loc = some .directory) (part : Bytes) : step t loc part = step t' loc part := by
  simp only [step, h, h']

/-- Only a directory can be left. -/
theorem directory_of_step {t : FileTree} {loc next : Location} {part : Bytes}
    (h : step t loc part = .ok next) : t.get? loc = some .directory := by
  unfold step at h
  split at h
  · contradiction
  · contradiction
  · assumption

theorem walk_cons_eq_ok_iff {t : FileTree} {loc l : Location} {part : Bytes} {parts : List Bytes} :
    walk t loc (part :: parts) = .ok l ↔
      ∃ next, step t loc part = .ok next ∧ walk t next parts = .ok l := by
  rw [walk]
  cases step t loc part with
  | error f =>
      constructor
      · intro h
        contradiction
      · intro h
        obtain ⟨next, hnext, -⟩ := h
        contradiction
  | ok next =>
      constructor
      · intro h
        exact ⟨next, rfl, h⟩
      · intro h
        obtain ⟨next', hnext, hwalk⟩ := h
        obtain rfl := Except.ok.inj hnext
        exact hwalk

/-- A walk in two parts. -/
theorem walk_append_eq_ok_iff {t : FileTree} {loc l : Location} {ps qs : List Bytes} :
    walk t loc (ps ++ qs) = .ok l ↔ ∃ mid, walk t loc ps = .ok mid ∧ walk t mid qs = .ok l := by
  induction ps generalizing loc with
  | nil =>
      constructor
      · intro h
        exact ⟨loc, rfl, h⟩
      · intro h
        obtain ⟨mid, hmid, hwalk⟩ := h
        obtain rfl := Except.ok.inj hmid
        exact hwalk
  | cons p ps ih =>
      rw [List.cons_append, walk_cons_eq_ok_iff]
      constructor
      · intro h
        obtain ⟨next, hstep, hwalk⟩ := h
        obtain ⟨mid, hmid, hrest⟩ := ih.1 hwalk
        exact ⟨mid, walk_cons_eq_ok_iff.2 ⟨next, hstep, hmid⟩, hrest⟩
      · intro h
        obtain ⟨mid, hmid, hrest⟩ := h
        obtain ⟨next, hstep, hwalk⟩ := walk_cons_eq_ok_iff.1 hmid
        exact ⟨next, hstep, ih.2 ⟨mid, hwalk, hrest⟩⟩

/-- A plain name goes down by that name. -/
theorem step_plain {t : FileTree} {loc next : Location} {name : Bytes} (hname : IsPlain name)
    (h : step t loc name = .ok next) : next = loc ++ [name] := by
  have hdir := directory_of_step h
  simp only [step, hdir, hname.not_idle, Bool.false_eq_true, if_false, if_neg hname.ne_up] at h
  split at h
  · contradiction
  · exact (Except.ok.inj h).symm

/-- Plain names lead down by those names. -/
theorem walk_plain {t : FileTree} {loc l : Location} {names : List Bytes}
    (hnames : ∀ n ∈ names, IsPlain n) (h : walk t loc names = .ok l) : l = loc ++ names := by
  induction names generalizing loc with
  | nil =>
      obtain rfl := Except.ok.inj h
      exact (List.append_nil loc).symm
  | cons n names ih =>
      obtain ⟨next, hstep, hwalk⟩ := walk_cons_eq_ok_iff.1 h
      have hnext := step_plain (hnames n List.mem_cons_self) hstep
      have hl := ih (fun m hm => hnames m (List.mem_cons_of_mem n hm)) hwalk
      rw [hl, hnext, List.append_assoc, List.singleton_append]

/-! ## Trees with the same directories -/

/-- A file system seen from the same place, in which all directories are still there. -/
structure KeepsDirectories (fs fs' : FileSystem) : Prop where
  cwd : fs'.cwd = fs.cwd
  directory : ∀ loc, fs.tree.get? loc = some .directory → fs'.tree.get? loc = some .directory

theorem KeepsDirectories.refl (fs : FileSystem) : KeepsDirectories fs fs := ⟨rfl, fun _ h => h⟩

theorem KeepsDirectories.trans {fs fs' fs'' : FileSystem} (h : KeepsDirectories fs fs')
    (h' : KeepsDirectories fs' fs'') : KeepsDirectories fs fs'' :=
  ⟨h'.cwd.trans h.cwd, fun loc hloc => h'.directory loc (h.directory loc hloc)⟩

theorem walk_of_keepsDirectories {fs fs' : FileSystem} (hk : KeepsDirectories fs fs')
    {loc l : Location} {parts : List Bytes} (h : walk fs.tree loc parts = .ok l) :
    walk fs'.tree loc parts = .ok l := by
  induction parts generalizing loc with
  | nil => exact h
  | cons part parts ih =>
      obtain ⟨next, hstep, hwalk⟩ := walk_cons_eq_ok_iff.1 h
      have hdir := directory_of_step hstep
      rw [step_of_directory hdir (hk.directory loc hdir)] at hstep
      exact walk_cons_eq_ok_iff.2 ⟨next, hstep, ih hwalk⟩

/-- What a path has to be to lead to a place. -/
theorem resolve_eq_ok_iff {fs : FileSystem} {path : Bytes} {l : Location} :
    fs.resolve path = .ok l ↔
      0 ∉ path ∧ path ≠ [] ∧
        walk fs.tree (if isAbsolute path then [] else fs.cwd) (pieces (byte '/') path) = .ok l := by
  unfold resolve
  by_cases hnul : 0 ∈ path
  · simp [hnul]
  · by_cases hnil : path = []
    · simp [hnil]
    · rw [if_neg hnul, if_neg hnil]
      exact ⟨fun h => ⟨hnul, hnil, h⟩, fun h => h.2.2⟩

/-- **Resolution is stable**: a path leads to the same place as long as no directory goes away. -/
theorem resolve_of_keepsDirectories {fs fs' : FileSystem} (hk : KeepsDirectories fs fs')
    {path : Bytes} {l : Location} (h : fs.resolve path = .ok l) : fs'.resolve path = .ok l := by
  rw [resolve_eq_ok_iff] at h ⊢
  rw [hk.cwd]
  exact ⟨h.1, h.2.1, walk_of_keepsDirectories hk h.2.2⟩

/-! ## Writing one file -/

/-- What writing a file takes and does. -/
theorem writeFile_eq_ok_iff {fs fs' : FileSystem} {path content : Bytes} :
    fs.writeFile path content = .ok fs' ↔
      ∃ loc, fs.resolve path = .ok loc ∧ fs.tree.get? loc ≠ some .directory ∧
        fs' = fs.set loc (.file content) := by
  unfold writeFile
  cases hres : fs.resolve path with
  | error f => simp
  | ok loc =>
      cases hget : fs.tree.get? loc with
      | none => simp [hget, eq_comm]
      | some e =>
          cases e with
          | directory => simp [hget]
          | file old => simp [hget, eq_comm]

/-- A place that is no directory is not the root. -/
theorem ne_nil_of_not_directory {fs : FileSystem} {loc : Location}
    (h : fs.tree.get? loc ≠ some .directory) : loc ≠ [] := by
  intro hnil
  rw [hnil] at h
  exact h rfl

theorem get?_set {fs : FileSystem} {loc : Location} (h : fs.tree.get? loc ≠ some .directory)
    (e : Entry) (l : Location) :
    (fs.set loc e).tree.get? l = if l = loc then some e else fs.tree.get? l :=
  fs.tree.get?_set (ne_nil_of_not_directory h) e l

/-- Putting an entry where there is no directory keeps all directories. -/
theorem keepsDirectories_set {fs : FileSystem} {loc : Location}
    (h : fs.tree.get? loc ≠ some .directory) (e : Entry) : KeepsDirectories fs (fs.set loc e) := by
  refine ⟨rfl, fun l hl => ?_⟩
  have hne : l ≠ loc := by
    intro heq
    rw [heq] at hl
    exact h hl
  rw [get?_set h, if_neg hne, hl]

/-- Writing a file keeps all directories. -/
theorem keepsDirectories_writeFile {fs fs' : FileSystem} {path content : Bytes}
    (h : fs.writeFile path content = .ok fs') : KeepsDirectories fs fs' := by
  obtain ⟨loc, -, hloc, rfl⟩ := writeFile_eq_ok_iff.1 h
  exact keepsDirectories_set hloc (.file content)

/-- A file that is there can be read by every path that leads to it. -/
theorem readFile_eq_ok {fs : FileSystem} {path content : Bytes} {l : Location}
    (hres : fs.resolve path = .ok l) (hget : fs.tree.get? l = some (.file content)) :
    fs.readFile path = .ok content := by
  simp only [readFile, hres, hget]

/-- What can be read is a file, and what is read is what it holds. -/
theorem readFile_eq_ok_iff {fs : FileSystem} {path content : Bytes} :
    fs.readFile path = .ok content ↔ fs.stat path = .ok (.file content) := by
  rw [readFile, stat]
  cases fs.resolve path with
  | error f => simp
  | ok loc =>
      cases hget : fs.tree.get? loc with
      | none => simp [hget]
      | some e => cases e <;> simp [hget]

/-! ## Names below a directory -/

/-- The place that the clean form of a directory leads to. -/
def enter (fs : FileSystem) (dir : Bytes) : Except PathFault Location :=
  walk fs.tree (if isAbsolute dir then [] else fs.cwd) (ofBytes dir).parts

/-- The empty element in front of an absolute path stays at the root. -/
theorem walk_root_cons (t : FileTree) (parts : List Bytes) :
    walk t [] ([] :: parts) = walk t [] parts := rfl

/-- A clean path is looked for element by element. -/
theorem resolve_toBytes_eq_ok_iff {fs : FileSystem} {p : Path} {l : Location} (hne : p.parts ≠ [])
    (hel : ∀ q ∈ p.parts, IsElement q) :
    fs.resolve p.toBytes = .ok l ↔
      0 ∉ p.toBytes ∧
        walk fs.tree (if p.absolute then [] else fs.cwd) p.parts = .ok l := by
  have habs := isAbsolute_toBytes hel
  have hpieces := pieces_toBytes hne hel
  have hfull : p.toBytes ≠ [] := by
    intro hnil
    rw [hnil, pieces_nil] at hpieces
    cases hp : p.absolute with
    | true =>
        rw [hp, if_pos rfl] at hpieces
        exact hne (List.cons.inj hpieces).2.symm
    | false =>
        rw [hp, if_neg Bool.false_ne_true] at hpieces
        exact (hel [] (hpieces ▸ List.mem_singleton_self [])).ne_nil rfl
  rw [resolve_eq_ok_iff, habs, hpieces]
  cases hp : p.absolute with
  | true =>
      simp only [if_true, walk_root_cons]
      exact ⟨fun h => ⟨h.1, h.2.2⟩, fun h => ⟨h.1, hfull, h.2⟩⟩
  | false =>
      simp only [Bool.false_eq_true, if_false]
      exact ⟨fun h => ⟨h.1, h.2.2⟩, fun h => ⟨h.1, hfull, h.2⟩⟩

/-- Names below a directory are looked for where the directory is. -/
theorem resolve_join_eq_ok_iff {fs : FileSystem} {dir : Bytes} {names : List Bytes} {l : Location}
    (hne : names ≠ []) (hnames : ∀ n ∈ names, IsPlain n) :
    fs.resolve (join dir (joined (utf8 "/") names)) = .ok l ↔
      0 ∉ join dir (joined (utf8 "/") names) ∧
        ∃ base, fs.enter dir = .ok base ∧ walk fs.tree base names = .ok l := by
  have hparts : (ofBytes dir).parts ++ names ≠ [] := by simp [hne]
  have hel : ∀ q ∈ (ofBytes dir).parts ++ names, IsElement q := by
    intro q hq
    cases List.mem_append.1 hq with
    | inl hq => exact isElement_of_mem_parts dir q hq
    | inr hq => exact (hnames q hq).toIsElement
  rw [join_joined dir hne hnames, resolve_toBytes_eq_ok_iff hparts hel, walk_append_eq_ok_iff,
    enter]

/-- **Distinct names, distinct places**: below one directory, plain names that lead to the same
place are the same. -/
theorem resolve_join_injective {fs : FileSystem} {dir : Bytes} {names names' : List Bytes}
    {l : Location} (hne : names ≠ []) (hne' : names' ≠ []) (hnames : ∀ n ∈ names, IsPlain n)
    (hnames' : ∀ n ∈ names', IsPlain n)
    (h : fs.resolve (join dir (joined (utf8 "/") names)) = .ok l)
    (h' : fs.resolve (join dir (joined (utf8 "/") names')) = .ok l) : names = names' := by
  obtain ⟨-, base, hbase, hwalk⟩ := (resolve_join_eq_ok_iff hne hnames).1 h
  obtain ⟨-, base', hbase', hwalk'⟩ := (resolve_join_eq_ok_iff hne' hnames').1 h'
  obtain rfl := Except.ok.inj (hbase.symm.trans hbase')
  have hl := walk_plain hnames hwalk
  have hl' := walk_plain hnames' hwalk'
  exact List.append_cancel_left (hl.symm.trans hl')

end FileSystem

end ZincBind

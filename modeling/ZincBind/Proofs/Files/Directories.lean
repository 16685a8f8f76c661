import ZincBind.Proofs.Files.Cleaning

/-!
# ZincBind.Proofs.Files.Directories

Directories: what lies below them, and how they are made.  In a well-formed tree nothing lies
below a directory without children (`get?_below_of_isEmptyAt`).  Making a directory and those above
it changes one place if only the last of them is missing, whatever the spelling of the one it lies
in (`makeDirectories_join`).
-/

namespace ZincBind

namespace FileTree

/-! ## Well-formed trees -/

/-- A tree in which every entry lies in a directory. -/
def IsWellFormed (t : FileTree) : Prop :=
  ∀ x ∈ t.entries, t.get? x.1.dropLast = some .directory

instance (t : FileTree) : Decidable t.IsWellFormed :=
  inferInstanceAs (Decidable (∀ x ∈ t.entries, t.get? x.1.dropLast = some .directory))

/-- What is found at a place other than the root is an entry. -/
theorem mem_entries_of_get? {t : FileTree} {loc : Location} {e : Entry} (hne : loc ≠ [])
    (h : t.get? loc = some e) : (loc, e) ∈ t.entries := by
  rw [get?, if_neg hne, List.lookup_eq_some_iff] at h
  obtain ⟨front, back, hentries, -⟩ := h
  rw [hentries]
  exact List.mem_append_right _ List.mem_cons_self

theorem IsWellFormed.parent {t : FileTree} (ht : t.IsWellFormed) {loc : Location} {name : Bytes}
    {e : Entry} (h : t.get? (loc ++ [name]) = some e) : t.get? loc = some .directory := by
  have hparent := ht _ (mem_entries_of_get? (by simp) h)
  rwa [List.dropLast_concat] at hparent

/-- **Empty directories**: in a well-formed tree a place without children has nothing below it. -/
theorem get?_below_of_isEmptyAt {t : FileTree} (ht : t.IsWellFormed) {dir : Location}
    (hempty : t.isEmptyAt dir = true) {names : List Bytes} (hne : names ≠ []) :
    t.get? (dir ++ names) = none := by
  induction names using List.reverseRecOn with
  | nil => contradiction
  | append_singleton front n ih =>
      rw [← List.append_assoc]
      cases hget : t.get? (dir ++ front ++ [n]) with
      | none => rfl
      | some e =>
          exfalso
          by_cases hfront : front = []
          · -- a child of the directory
            rw [hfront, List.append_nil] at hget
            have hmem := mem_entries_of_get? (by simp) hget
            have hchild : isChild dir (dir ++ [n]) = true := by simp [isChild]
            rw [isEmptyAt, Bool.not_eq_true', List.any_eq_false] at hempty
            exact hempty _ hmem hchild
          · have hparent := ht.parent hget
            rw [ih hfront] at hparent
            contradiction

end FileTree

namespace FileSystem

open Bytes ZincBind.Path

/-! ## On the way to a directory -/

/-- What it takes to go down by a plain name. -/
theorem step_plain_eq_ok_iff {t : FileTree} {loc next : Location} {name : Bytes}
    (hname : IsPlain name) :
    step t loc name = .ok next ↔
      t.get? loc = some .directory ∧ name.length ≤ maxName ∧ next = loc ++ [name] := by
  constructor
  · intro h
    have hdir := directory_of_step h
    refine ⟨hdir, ?_, step_plain hname h⟩
    simp only [step, hdir, hname.not_idle, Bool.false_eq_true, if_false, if_neg hname.ne_up] at h
    split at h
    · contradiction
    · omega
  · intro h
    obtain ⟨hdir, hlen, rfl⟩ := h
    simp only [step, hdir, hname.not_idle, Bool.false_eq_true, if_false, if_neg hname.ne_up,
      if_neg (Nat.not_lt.2 hlen)]

/-- A walk that ends in a directory begins in one. -/
theorem directory_of_walk {t : FileTree} {loc l : Location} {parts : List Bytes}
    (h : walk t loc parts = .ok l) (hdir : t.get? l = some .directory) :
    t.get? loc = some .directory := by
  cases parts with
  | nil => rwa [Except.ok.inj h]
  | cons part parts =>
      obtain ⟨next, hstep, -⟩ := walk_cons_eq_ok_iff.1 h
      exact directory_of_step hstep

/-- Every place on the way to a directory is one. -/
theorem exists_walk_take {t : FileTree} {loc l : Location} {parts : List Bytes}
    (h : walk t loc parts = .ok l) (hdir : t.get? l = some .directory) (n : Nat) :
    ∃ mid, walk t loc (parts.take n) = .ok mid ∧ t.get? mid = some .directory := by
  rw [← List.take_append_drop n parts, walk_append_eq_ok_iff] at h
  obtain ⟨mid, htake, hdrop⟩ := h
  exact ⟨mid, htake, directory_of_walk hdrop hdir⟩

/-! ## Making directories -/

theorem makeDirectory_of_directory {fs : FileSystem} {path : Bytes} {loc : Location}
    (hres : fs.resolve path = .ok loc) (hdir : fs.tree.get? loc = some .directory) :
    fs.makeDirectory path = .ok fs := by
  simp only [makeDirectory, hres, hdir]

theorem makeDirectory_of_missing {fs : FileSystem} {path : Bytes} {loc : Location}
    (hres : fs.resolve path = .ok loc) (hmissing : fs.tree.get? loc = none) :
    fs.makeDirectory path = .ok (fs.set loc .directory) := by
  simp only [makeDirectory, hres, hmissing]

/-- Directories that are there need not be made. -/
theorem makeAll_append_of_directories {fs : FileSystem} {paths : List Bytes}
    (h : ∀ path ∈ paths, ∃ loc, fs.resolve path = .ok loc ∧ fs.tree.get? loc = some .directory)
    (rest : List Bytes) : fs.makeAll (paths ++ rest) = fs.makeAll rest := by
  induction paths with
  | nil => rfl
  | cons path paths ih =>
      obtain ⟨loc, hres, hdir⟩ := h path List.mem_cons_self
      rw [List.cons_append, makeAll, makeDirectory_of_directory hres hdir]
      exact ih fun q hq => h q (List.mem_cons_of_mem path hq)

theorem ancestry_concat (p : Path) (name : Bytes) :
    ancestry ⟨p.absolute, p.parts ++ [name]⟩ =
      ancestry p ++ [toBytes ⟨p.absolute, p.parts ++ [name]⟩] := by
  have hlast : (p.parts ++ [name]).take (p.parts.length + 1) = p.parts ++ [name] :=
    List.take_of_length_le (by simp)
  simp only [ancestry, List.length_append, List.length_singleton, List.range_succ, List.map_append,
    List.map_cons, List.map_nil, hlast]
  congr 1
  apply List.map_congr_left
  intro n hn
  rw [List.take_append_of_le_length (List.mem_range.1 hn)]

/-- Everything above a directory, and the directory itself, is a directory. -/
theorem ancestry_resolves {fs : FileSystem} {dir : Bytes} {base : Location}
    (hres : fs.resolve dir = .ok base) (hdir : fs.tree.get? base = some .directory) :
    ∀ path ∈ ancestry (ofBytes dir),
      ∃ loc, fs.resolve path = .ok loc ∧ fs.tree.get? loc = some .directory := by
  intro path hpath
  obtain ⟨n, hn, rfl⟩ := List.mem_map.1 hpath
  obtain ⟨mid, hwalk, hmid⟩ := exists_walk_take (enter_of_resolve hres) hdir (n + 1)
  have hel : ∀ q ∈ (ofBytes dir).parts.take (n + 1), IsElement q := fun q hq =>
    isElement_of_mem_parts dir q (List.mem_of_mem_take hq)
  have hne : (ofBytes dir).parts.take (n + 1) ≠ [] := by
    rw [List.mem_range] at hn
    intro hnil
    have hlen := congrArg List.length hnil
    rw [List.length_take, List.length_nil] at hlen
    omega
  have hnul : 0 ∉ dir := (resolve_eq_ok_iff.1 hres).1
  refine ⟨mid, (resolve_toBytes_eq_ok_iff hne hel).2 ⟨?_, hwalk⟩, hmid⟩
  exact not_mem_toBytes (by decide) fun q hq =>
    not_mem_of_mem_parts (by decide) hnul (List.mem_of_mem_take hq)

/-- **Making one directory**: below a directory that is there, a missing one is made at its place
and nothing else is. -/
theorem makeDirectories_join {fs : FileSystem} {dir name : Bytes} {base : Location}
    (hres : fs.resolve dir = .ok base) (hdir : fs.tree.get? base = some .directory)
    (hname : IsPlain name) (hnul : 0 ∉ name) (hlen : name.length ≤ maxName)
    (hmissing : fs.tree.get? (base ++ [name]) = none) :
    fs.makeDirectories (join dir name) = (fs.set (base ++ [name]) .directory, .ok ()) := by
  have hplain : ∀ n ∈ [name], IsPlain n := by simpa using hname
  have hjoin := join_joined dir (List.cons_ne_nil name []) hplain
  have hpath : fs.resolve (join dir (joined (utf8 "/") [name])) = .ok (base ++ [name]) := by
    have hwalk : walk fs.tree base [name] = .ok (base ++ [name]) :=
      walk_cons_eq_ok_iff.2 ⟨_, (step_plain_eq_ok_iff hname).2 ⟨hdir, hlen, rfl⟩, rfl⟩
    have hfree : 0 ∉ join dir name :=
      not_mem_join (by decide) (resolve_eq_ok_iff.1 hres).1 hnul
    exact (resolve_join_eq_ok_iff (List.cons_ne_nil name []) hplain).2
      ⟨hfree, base, enter_of_resolve hres, hwalk⟩
  rw [joined_singleton] at hjoin hpath
  have hclean : ofBytes (join dir name) = ⟨isAbsolute dir, (ofBytes dir).parts ++ [name]⟩ := by
    rw [hjoin]
    exact ofBytes_toBytes (by simp) (IsNormal.name hname (isNormal_parts dir))
  have hancestry : ancestry ⟨isAbsolute dir, (ofBytes dir).parts ++ [name]⟩ =
      ancestry (ofBytes dir) ++ [join dir name] := by
    rw [hjoin]
    exact ancestry_concat (ofBytes dir) name
  rw [makeDirectories, hclean, hancestry,
    makeAll_append_of_directories (ancestry_resolves hres hdir), makeAll,
    makeDirectory_of_missing hpath hmissing]
  rfl

end FileSystem

end ZincBind

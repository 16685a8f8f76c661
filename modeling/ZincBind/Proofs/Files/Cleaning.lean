import ZincBind.Proofs.Files.Resolution

/-!
# ZincBind.Proofs.Files.Cleaning

Cleaning a path agrees with walking it.  Cleaning takes a name back where a `..` follows it, and
the walk goes down into that name and up again, so whatever place a spelling leads to, the clean
spelling leads to (`enter_of_resolve`).  The converse fails: cleaning also takes back names that
are not there.

One push is described once (`Pushed`), and everything here follows from that description: the
form of clean paths (`isNormal_parts`), their bytes (`mem_parts_cases`, `not_mem_join`) and where
they lead.
-/

namespace ZincBind

namespace Path

open Bytes

/-! ## Clean paths -/

/-- The elements of a clean path: first `..`, of which an absolute path has none, then plain
names. -/
inductive IsNormal (absolute : Bool) : List Bytes → Prop
  | nil : IsNormal absolute []
  | climb {parts : List Bytes} (hrel : absolute = false) (hups : parts.getLast?.all (· == up) = true)
      (h : IsNormal absolute parts) : IsNormal absolute (parts ++ [up])
  | name {parts : List Bytes} {n : Bytes} (hn : IsPlain n) (h : IsNormal absolute parts) :
      IsNormal absolute (parts ++ [n])

/-- What adding an element to a clean path does. -/
inductive Pushed (absolute : Bool) (parts : List Bytes) (part : Bytes) : List Bytes → Prop
  /-- An idle element changes nothing. -/
  | idle (hpart : isIdle part = true) : Pushed absolute parts part parts
  /-- `..` takes the last name back. -/
  | back {front : List Bytes} {n : Bytes} (hpart : part = up) (hparts : parts = front ++ [n])
      (hn : IsPlain n) (h : IsNormal absolute front) : Pushed absolute parts part front
  /-- `..` stays at the root. -/
  | root (hpart : part = up) (habs : absolute = true) (hparts : parts = []) :
      Pushed absolute parts part []
  /-- `..` is kept where no name is left. -/
  | climb (hpart : part = up) (hrel : absolute = false)
      (hups : parts.getLast?.all (· == up) = true) : Pushed absolute parts part (parts ++ [up])
  /-- A name goes to the end. -/
  | name (hpart : IsPlain part) : Pushed absolute parts part (parts ++ [part])

theorem pushed_push {absolute : Bool} {parts : List Bytes} {part : Bytes}
    (h : IsNormal absolute parts) (hpart : byte '/' ∉ part) :
    Pushed absolute parts part (push absolute parts part) := by
  by_cases hidle : isIdle part = true
  · rw [push, if_pos hidle]
    exact Pushed.idle hidle
  · by_cases hup : part = up
    · subst hup
      rw [push, if_neg hidle, if_pos rfl]
      cases habs : absolute with
      | true =>
          rw [habs] at h
          rw [if_pos rfl]
          cases h with
          | nil => exact Pushed.root rfl rfl rfl
          | climb hrel => contradiction
          | name hn hfront =>
              rw [List.dropLast_concat]
              exact Pushed.back rfl rfl hn hfront
      | false =>
          rw [habs] at h
          rw [if_neg Bool.false_ne_true]
          by_cases hups : parts.getLast?.all (· == up) = true
          · rw [if_pos hups]
            exact Pushed.climb rfl rfl hups
          · rw [if_neg hups]
            cases h with
            | nil => exact absurd rfl hups
            | climb => exact absurd (by rw [List.getLast?_concat]; rfl) hups
            | name hn hfront =>
                rw [List.dropLast_concat]
                exact Pushed.back rfl rfl hn hfront
    · rw [push_name (Bool.eq_false_iff.2 hidle) hup]
      simp only [isIdle, Bool.or_eq_true, beq_iff_eq, not_or] at hidle
      exact Pushed.name ⟨⟨hidle.1, hpart⟩, hidle.2, hup⟩

theorem Pushed.isNormal {absolute : Bool} {parts parts' : List Bytes} {part : Bytes}
    (h : Pushed absolute parts part parts') (hparts : IsNormal absolute parts) :
    IsNormal absolute parts' := by
  cases h with
  | idle => exact hparts
  | back _ _ _ hfront => exact hfront
  | root => exact IsNormal.nil
  | climb _ hrel hups => exact IsNormal.climb hrel hups hparts
  | name hpart => exact IsNormal.name hpart hparts

theorem Pushed.mem_cases {absolute : Bool} {parts parts' : List Bytes} {part q : Bytes}
    (h : Pushed absolute parts part parts') (hq : q ∈ parts') : q ∈ parts ∨ q = up ∨ q = part := by
  cases h with
  | idle => exact Or.inl hq
  | back _ hparts =>
      rw [hparts]
      exact Or.inl (List.mem_append_left _ hq)
  | root => simp at hq
  | climb =>
      rw [List.mem_append, List.mem_singleton] at hq
      exact hq.imp_right Or.inl
  | name =>
      rw [List.mem_append, List.mem_singleton] at hq
      exact hq.imp_right Or.inr

/-- Adding elements one by one keeps what each step keeps. -/
theorem foldl_push_induction {absolute : Bool} {motive : List Bytes → Prop} {ps : List Bytes}
    (hslash : ∀ p ∈ ps, byte '/' ∉ p)
    (hstep : ∀ parts parts' p, p ∈ ps → motive parts → Pushed absolute parts p parts' →
      motive parts')
    {parts : List Bytes} (hnormal : IsNormal absolute parts) (h : motive parts) :
    IsNormal absolute (ps.foldl (push absolute) parts) ∧
      motive (ps.foldl (push absolute) parts) := by
  induction ps generalizing parts with
  | nil => exact ⟨hnormal, h⟩
  | cons p ps ih =>
      have hpush := pushed_push hnormal (hslash p List.mem_cons_self)
      rw [List.foldl_cons]
      exact ih (fun q hq => hslash q (List.mem_cons_of_mem p hq))
        (fun parts parts' q hq => hstep parts parts' q (List.mem_cons_of_mem p hq))
        (hpush.isNormal hnormal) (hstep _ _ p List.mem_cons_self h hpush)

theorem isNormal_parts (spelling : Bytes) :
    IsNormal (isAbsolute spelling) (ofBytes spelling).parts :=
  (foldl_push_induction (motive := fun _ => True) (fun _ => not_mem_of_mem_pieces)
    (fun _ _ _ _ _ _ => trivial) IsNormal.nil trivial).1

/-- A clean path has no elements but `..` and those of its spelling. -/
theorem mem_parts_cases {spelling q : Bytes} (hq : q ∈ (ofBytes spelling).parts) :
    q = up ∨ q ∈ pieces (byte '/') spelling := by
  have hstep : ∀ parts parts' p, p ∈ pieces (byte '/') spelling →
      (∀ q ∈ parts, q = up ∨ q ∈ pieces (byte '/') spelling) →
      Pushed (isAbsolute spelling) parts p parts' →
      ∀ q ∈ parts', q = up ∨ q ∈ pieces (byte '/') spelling := by
    intro parts parts' p hp hparts hpush q hq
    obtain hq | hq | hq := hpush.mem_cases hq
    · exact hparts q hq
    · exact Or.inl hq
    · exact Or.inr (hq ▸ hp)
  have h := foldl_push_induction (fun _ => not_mem_of_mem_pieces) hstep IsNormal.nil (by simp)
  exact h.2 q hq

/-- Cleaning again changes nothing. -/
theorem foldl_push_of_isNormal {absolute : Bool} {parts : List Bytes}
    (h : IsNormal absolute parts) : parts.foldl (push absolute) [] = parts := by
  induction h with
  | nil => rfl
  | climb hrel hups _ ih =>
      have hidle : isIdle up = false := by decide
      rw [List.foldl_append, ih, List.foldl_cons, List.foldl_nil, push, hidle, hrel]
      simp only [Bool.false_eq_true, if_false, if_true, hups]
  | name hn _ ih =>
      rw [List.foldl_append, ih, List.foldl_cons, List.foldl_nil, push_name hn.not_idle hn.ne_up]

theorem IsNormal.isElement {absolute : Bool} {parts : List Bytes} (h : IsNormal absolute parts) :
    ∀ q ∈ parts, IsElement q := by
  induction h with
  | nil => simp
  | climb _ _ _ ih =>
      intro q hq
      rw [List.mem_append, List.mem_singleton] at hq
      obtain hq | rfl := hq
      · exact ih q hq
      · exact isElement_up
  | name hn _ ih =>
      intro q hq
      rw [List.mem_append, List.mem_singleton] at hq
      obtain hq | rfl := hq
      · exact ih q hq
      · exact hn.toIsElement

/-- **Clean spellings**: a clean path that is not a root is read back from its spelling. -/
theorem ofBytes_toBytes {p : Path} (hne : p.parts ≠ []) (h : IsNormal p.absolute p.parts) :
    ofBytes p.toBytes = p := by
  have habs := isAbsolute_toBytes h.isElement
  have hpieces := pieces_toBytes hne h.isElement
  obtain ⟨absolute, parts⟩ := p
  rw [ofBytes, habs, hpieces]
  cases absolute with
  | true =>
      rw [if_pos rfl, List.foldl_cons, push_nil, foldl_push_of_isNormal h]
  | false =>
      rw [if_neg Bool.false_ne_true, foldl_push_of_isNormal h]

section

variable {b : UInt8} (hb : b ∉ utf8 "./")
include hb

/-- A spelling holds no byte, but for dots and slashes, that the elements do not hold. -/
theorem not_mem_toBytes {p : Path} (h : ∀ q ∈ p.parts, b ∉ q) : b ∉ p.toBytes := by
  have hslash : b ∉ utf8 "/" := fun hmem => hb ((by decide : utf8 "/" ⊆ utf8 "./") hmem)
  have hhere : b ∉ here := fun hmem => hb ((by decide : here ⊆ utf8 "./") hmem)
  have hjoined : b ∉ joined (utf8 "/") p.parts := by
    intro hmem
    cases mem_of_mem_joined hmem with
    | inl hmem => exact hslash hmem
    | inr hmem =>
        obtain ⟨q, hq, hmem⟩ := hmem
        exact h q hq hmem
  rw [toBytes]
  split
  · rw [List.mem_cons, not_or]
    exact ⟨fun heq => hslash (List.mem_singleton.2 heq), hjoined⟩
  · split
    · exact hhere
    · exact hjoined

/-- The elements of a clean path hold no byte, but for dots, that the spelling does not hold. -/
theorem not_mem_of_mem_parts {spelling q : Bytes} (h : b ∉ spelling)
    (hq : q ∈ (ofBytes spelling).parts) : b ∉ q := by
  cases mem_parts_cases hq with
  | inl hq =>
      rw [hq]
      exact fun hmem => hb ((by decide : up ⊆ utf8 "./") hmem)
  | inr hq => exact fun hmem => h ((infix_of_mem_pieces hq).subset hmem)

/-- Joining brings in no other bytes than dots and slashes. -/
theorem not_mem_join {base rest : Bytes} (hbase : b ∉ base) (hrest : b ∉ rest) :
    b ∉ join base rest := by
  have hclean : ∀ spelling, b ∉ spelling → b ∉ clean spelling := fun spelling h =>
    not_mem_toBytes hb fun q => not_mem_of_mem_parts hb h
  have hslash : b ≠ byte '/' := fun heq => hb (heq ▸ by decide)
  rw [join]
  split
  · split
    · exact List.not_mem_nil
    · exact hclean rest hrest
  · refine hclean _ ?_
    simp [hbase, hslash, hrest]

end

end Path

namespace FileSystem

open Bytes ZincBind.Path

/-! ## Walking a clean path -/

/-- An idle element stays in the directory. -/
theorem step_idle {t : FileTree} {loc next : Location} {part : Bytes} (hpart : isIdle part = true)
    (h : step t loc part = .ok next) : next = loc := by
  have hdir := directory_of_step h
  simp only [step, hdir, hpart, if_true] at h
  exact (Except.ok.inj h).symm

/-- `..` goes to the parent. -/
theorem step_up {t : FileTree} {loc next : Location} (h : step t loc up = .ok next) :
    next = loc.dropLast := by
  have hdir := directory_of_step h
  have hidle : isIdle up = false := by decide
  simp only [step, hdir, hidle, Bool.false_eq_true, if_false, if_true] at h
  exact (Except.ok.inj h).symm

theorem walk_concat_eq_ok_iff {t : FileTree} {loc l : Location} {parts : List Bytes}
    {part : Bytes} :
    walk t loc (parts ++ [part]) = .ok l ↔
      ∃ mid, walk t loc parts = .ok mid ∧ step t mid part = .ok l := by
  have hlast : ∀ mid, walk t mid [part] = .ok l ↔ step t mid part = .ok l := by
    intro mid
    rw [walk_cons_eq_ok_iff]
    constructor
    · intro h
      obtain ⟨next, hstep, hnext⟩ := h
      rwa [← Except.ok.inj hnext]
    · intro h
      exact ⟨l, h, rfl⟩
  rw [walk_append_eq_ok_iff]
  simp only [hlast]

/-- **One element**: where a clean path leads, followed by one more step, the clean path with the
element added leads. -/
theorem walk_of_pushed {t : FileTree} {absolute : Bool} {start mid next : Location}
    {parts parts' : List Bytes} {part : Bytes} (hstart : absolute = true → start = [])
    (hwalk : walk t start parts = .ok mid) (hstep : step t mid part = .ok next)
    (hpush : Pushed absolute parts part parts') : walk t start parts' = .ok next := by
  cases hpush with
  | idle hpart => rwa [step_idle hpart hstep]
  | back hpart hparts hn =>
      -- the last name was gone down, and its parent is where the walk was before
      rw [hparts, walk_concat_eq_ok_iff] at hwalk
      obtain ⟨above, hfront, hname⟩ := hwalk
      rw [hpart] at hstep
      rw [step_up hstep, step_plain hn hname, List.dropLast_concat]
      exact hfront
  | root hpart habs hparts =>
      rw [hparts] at hwalk
      obtain rfl := Except.ok.inj hwalk
      rw [hpart] at hstep
      rw [step_up hstep, hstart habs]
      rfl
  | climb hpart =>
      rw [hpart] at hstep
      exact walk_concat_eq_ok_iff.2 ⟨mid, hwalk, hstep⟩
  | name => exact walk_concat_eq_ok_iff.2 ⟨mid, hwalk, hstep⟩

theorem walk_foldl_push {t : FileTree} {absolute : Bool} {start mid l : Location}
    {parts ps : List Bytes} (hstart : absolute = true → start = [])
    (hnormal : IsNormal absolute parts) (hslash : ∀ p ∈ ps, byte '/' ∉ p)
    (hwalk : walk t start parts = .ok mid) (h : walk t mid ps = .ok l) :
    walk t start (ps.foldl (push absolute) parts) = .ok l := by
  induction ps generalizing parts mid with
  | nil =>
      obtain rfl := Except.ok.inj h
      exact hwalk
  | cons p ps ih =>
      obtain ⟨next, hstep, hrest⟩ := walk_cons_eq_ok_iff.1 h
      have hpush := pushed_push hnormal (hslash p List.mem_cons_self)
      rw [List.foldl_cons]
      exact ih (hpush.isNormal hnormal) (fun q hq => hslash q (List.mem_cons_of_mem p hq))
        (walk_of_pushed hstart hwalk hstep hpush) hrest

/-- **Cleaning agrees with walking**: where a spelling leads, its clean form leads. -/
theorem enter_of_resolve {fs : FileSystem} {dir : Bytes} {base : Location}
    (h : fs.resolve dir = .ok base) : fs.enter dir = .ok base := by
  obtain ⟨-, -, hwalk⟩ := resolve_eq_ok_iff.1 h
  exact walk_foldl_push (fun habs => if_pos habs) IsNormal.nil (fun _ => not_mem_of_mem_pieces) rfl
    hwalk

end FileSystem

end ZincBind

import ZincBind.Bytes

/-!
# ZincBind.Files.Tree

File trees. A tree is a list of places with what is found there; `get?` is the view through which
everything else looks at it, and the root, which is no entry, is always a directory. Setting a
place that is there already keeps its position, so writing the same thing twice changes nothing.
-/

namespace ZincBind

/-- A place in a file tree: the names on the way down from the root. -/
abbrev Location := List Bytes

/-- What is found at a place. -/
inductive Entry where
  | directory
  | file (content : Bytes)
deriving DecidableEq, Repr

/-- A file tree. -/
structure FileTree where
  /-- The places other than the root. -/
  entries : List (Location × Entry)
deriving DecidableEq, Repr

namespace FileTree

/-- The tree with nothing but its root. -/
def empty : FileTree := ⟨[]⟩

/-- What is found at a place. -/
def get? (t : FileTree) (loc : Location) : Option Entry :=
  if loc = [] then some .directory else t.entries.lookup loc

/-- Replace the entry of a place, or add it at the end. -/
def setEntry (loc : Location) (e : Entry) : List (Location × Entry) → List (Location × Entry)
  | [] => [(loc, e)]
  | (l, f) :: rest => if l = loc then (l, e) :: rest else (l, f) :: setEntry loc e rest

/-- Put an entry at a place. -/
def set (t : FileTree) (loc : Location) (e : Entry) : FileTree := ⟨setEntry loc e t.entries⟩

/-- Whether a place lies directly below another. -/
def isChild (dir loc : Location) : Bool := loc.dropLast == dir && loc != []

/-- Whether nothing lies below a place. -/
def isEmptyAt (t : FileTree) (dir : Location) : Bool := !t.entries.any fun (l, _) => isChild dir l

/-- Everything strictly below a place, by the names on the way down from it. -/
def below (t : FileTree) (dir : Location) : List (Location × Entry) :=
  t.entries.filterMap fun (l, e) =>
    match dir.isPrefixOf? l with
    | some (n :: ns) => some (n :: ns, e)
    | _ => none

/-- Take away a place and everything below it. -/
def remove (t : FileTree) (loc : Location) : FileTree :=
  ⟨t.entries.filter fun (l, _) => !loc.isPrefixOf l⟩

@[simp] theorem get?_nil (t : FileTree) : t.get? [] = some .directory := rfl

theorem lookup_setEntry (loc l : Location) (e : Entry) (es : List (Location × Entry)) :
    (setEntry loc e es).lookup l = if l = loc then some e else es.lookup l := by
  induction es with
  | nil =>
      by_cases h : l = loc
      · simp [setEntry, h]
      · simp [setEntry, List.lookup_cons, h, beq_false_of_ne h]
  | cons x xs ih =>
      obtain ⟨k, f⟩ := x
      rw [setEntry]
      by_cases hk : k = loc
      · subst hk
        by_cases h : l = k
        · simp [h]
        · simp [List.lookup_cons, h, beq_false_of_ne h]
      · rw [if_neg hk]
        by_cases h : l = k
        · subst h
          simp [hk]
        · simp [List.lookup_cons, beq_false_of_ne h, ih]

/-- Setting a place shows there and nowhere else. -/
theorem get?_set (t : FileTree) {loc : Location} (h : loc ≠ []) (e : Entry) (l : Location) :
    (t.set loc e).get? l = if l = loc then some e else t.get? l := by
  by_cases hl : l = []
  · subst hl
    simp [Ne.symm h]
  · simp [get?, hl, set, lookup_setEntry]

end FileTree

end ZincBind

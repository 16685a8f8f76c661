/-!
# ZincBind.Bytes

Text is carried as bytes: a declaration file, a path or a setting may hold bytes that are not
UTF-8, and every one of them has to come back unchanged.

This module has the byte-list vocabulary the rest of the library is written in: literals,
cutting and joining at a separator, stripping the ends, numerals, sorted lists and ordered sets
of texts.
It depends only on the Lean 4 core library.
-/

namespace ZincBind

/-- A text as its bytes. -/
abbrev Bytes := List UInt8

/-- The UTF-8 bytes of a string. -/
def utf8 (s : String) : Bytes := s.toList.flatMap String.utf8EncodeChar

/-- The byte of an ASCII character. -/
def byte (c : Char) : UInt8 := UInt8.ofNat c.toNat

namespace Bytes

/-! ## Separators -/

/-- The pieces between the separators: one more piece than there are separators, and the whole
text when there is none. -/
def pieces (sep : UInt8) : Bytes → List Bytes
  | [] => [[]]
  | b :: bs =>
    if b = sep then [] :: pieces sep bs
    else
      match pieces sep bs with
      | [] => [[b]]
      | p :: ps => (b :: p) :: ps

/-- The texts in order with a separator between neighbours. -/
def joined (sep : Bytes) : List Bytes → Bytes
  | [] => []
  | [p] => p
  | p :: q :: ps => p ++ sep ++ joined sep (q :: ps)

/-- The texts in order, each followed by a line feed. -/
def unlines (ls : List Bytes) : Bytes := ls.flatMap (· ++ [byte '\n'])

/-- What stands before and after the first separator, if there is one. -/
def cut? (sep : UInt8) : Bytes → Option (Bytes × Bytes)
  | [] => none
  | b :: bs => if b = sep then some ([], bs) else (cut? sep bs).map fun (l, r) => (b :: l, r)

theorem pieces_ne_nil (sep : UInt8) (bs : Bytes) : pieces sep bs ≠ [] := by
  cases bs with
  | nil => simp [pieces]
  | cons b bs =>
      rw [pieces]
      split
      · simp
      · split <;> simp

@[simp] theorem pieces_nil (sep : UInt8) : pieces sep [] = [[]] := rfl

@[simp] theorem joined_nil (sep : Bytes) : joined sep [] = [] := rfl

@[simp] theorem joined_singleton (sep p : Bytes) : joined sep [p] = p := rfl

@[simp] theorem unlines_nil : unlines [] = [] := rfl

@[simp] theorem unlines_cons (l : Bytes) (ls : List Bytes) :
    unlines (l :: ls) = l ++ byte '\n' :: unlines ls := by
  simp [unlines]

@[simp] theorem unlines_append (ls ms : List Bytes) :
    unlines (ls ++ ms) = unlines ls ++ unlines ms := by
  simp [unlines]

/-- Cutting a text into pieces and joining them again gives the text back. -/
theorem joined_pieces (sep : UInt8) (bs : Bytes) : joined [sep] (pieces sep bs) = bs := by
  induction bs with
  | nil => rfl
  | cons b bs ih =>
      rw [pieces]
      cases h : pieces sep bs with
      | nil => exact absurd h (pieces_ne_nil sep bs)
      | cons p ps =>
          rw [h] at ih
          by_cases hb : b = sep
          · subst hb
            simp [joined, ih]
          · simp only [if_neg hb]
            cases ps with
            | nil => simp_all [joined]
            | cons q qs => simp_all [joined]

/-! ## The ends of a text -/

/-- What follows a given beginning. -/
def after? : Bytes → Bytes → Option Bytes
  | [], bs => some bs
  | _ :: _, [] => none
  | p :: ps, b :: bs => if p = b then after? ps bs else none

/-- What comes before a given ending. -/
def before? (ending bs : Bytes) : Option Bytes :=
  (after? ending.reverse bs.reverse).map List.reverse

/-- The text without the longest run of the given bytes at its end. -/
def stripEnd (p : UInt8 → Bool) (bs : Bytes) : Bytes := (bs.reverse.dropWhile p).reverse

/-- A text begins with another exactly when the other and the rest make it up. -/
theorem after?_eq_some_iff {start bs rest : Bytes} :
    after? start bs = some rest ↔ bs = start ++ rest := by
  induction start generalizing bs with
  | nil => simp [after?, eq_comm]
  | cons p ps ih =>
      cases bs with
      | nil => simp [after?]
      | cons b bs =>
          by_cases h : p = b
          · simp [after?, h, ih]
          · simp [after?, h, Ne.symm h]

/-- The same for endings. -/
theorem before?_eq_some_iff {ending bs rest : Bytes} :
    before? ending bs = some rest ↔ bs = rest ++ ending := by
  simp only [before?, Option.map_eq_some_iff, after?_eq_some_iff]
  constructor
  · rintro ⟨r, h, rfl⟩
    have := congrArg List.reverse h
    simpa using this
  · rintro rfl
    exact ⟨rest.reverse, by simp, by simp⟩

/-! ## Occurrences -/

/-- Whether the text holds another one as a run of neighbouring bytes. -/
def hasRun (needle : Bytes) : Bytes → Bool
  | [] => needle.isEmpty
  | b :: bs => needle.isPrefixOf (b :: bs) || hasRun needle bs

/-! ## Numerals -/

/-- The decimal numeral of a number. -/
def decimal (n : Nat) : Bytes := (Nat.toDigits 10 n).map byte

/-- The two lower-case hexadecimal digits of a byte. -/
def hexPair (b : UInt8) : Bytes :=
  [Nat.digitChar (b.toNat / 16), Nat.digitChar (b.toNat % 16)].map byte

/-! ## Sorted lists of texts -/

/-- Put a text in front of the first one that is not less than it. -/
def insertSorted (x : Bytes) : List Bytes → List Bytes
  | [] => [x]
  | y :: ys => if y < x then y :: insertSorted x ys else x :: y :: ys

/-- The texts in ascending order, each as often as it occurs. -/
def sorted (xs : List Bytes) : List Bytes := xs.foldr insertSorted []

theorem insertSorted_perm (x : Bytes) (ys : List Bytes) : (insertSorted x ys).Perm (x :: ys) := by
  induction ys with
  | nil => exact List.Perm.refl _
  | cons y ys ih =>
      rw [insertSorted]
      split
      · exact (List.Perm.cons y ih).trans (List.Perm.swap x y ys)
      · exact List.Perm.refl _

/-- Sorting changes nothing but the order. -/
theorem sorted_perm (xs : List Bytes) : (sorted xs).Perm xs := by
  induction xs with
  | nil => exact List.Perm.refl _
  | cons x xs ih => exact (insertSorted_perm x (sorted xs)).trans (List.Perm.cons x ih)

/-! ## Ordered sets of texts -/

/-- Put a text into a strictly ascending list, unless it is there already. -/
def insertOrdered (x : Bytes) : List Bytes → List Bytes
  | [] => [x]
  | y :: ys => if x = y then y :: ys else if x < y then x :: y :: ys else y :: insertOrdered x ys

/-- The distinct texts of a list in ascending byte order. -/
def ordered (xs : List Bytes) : List Bytes := xs.foldr insertOrdered []

@[simp] theorem mem_insertOrdered {x y : Bytes} {ys : List Bytes} :
    y ∈ insertOrdered x ys ↔ y = x ∨ y ∈ ys := by
  induction ys with
  | nil => simp [insertOrdered]
  | cons z zs ih =>
      rw [insertOrdered]
      split
      · simp_all
      · split
        · simp
        · simp only [List.mem_cons, ih]
          constructor
          · rintro (h | h | h) <;> simp [h]
          · rintro (h | h | h) <;> simp [h]

/-- Ordering keeps exactly the texts of the list. -/
@[simp] theorem mem_ordered {x : Bytes} {xs : List Bytes} : x ∈ ordered xs ↔ x ∈ xs := by
  induction xs with
  | nil => simp [ordered]
  | cons y ys ih => simpa [ordered] using or_congr Iff.rfl ih

end Bytes

end ZincBind

import Mathlib.Data.List.DropRight
import ZincBind.Bytes

/-!
# ZincBind.Proofs.Text.Separators

The list algebra behind the readers: cutting a text at a separator, cutting it at the first one,
and stripping its end.  Each operation is pinned down by an equivalence, so that later proofs
rewrite with the equivalence and never look at the recursion:

* `pieces_eq_iff` — the pieces of a text are the one list without separators that joins to it;
* `cut?_eq_some_iff` — a text is cut at its first separator;
* `stripEnd_eq_iff` — stripping takes off a longest end.
-/

namespace ZincBind

namespace Bytes

/-! ## Pieces -/

/-- A byte that is no separator goes to the first piece. -/
theorem pieces_cons_of_ne {sep b : UInt8} {bs p : Bytes} {ps : List Bytes} (hb : b ≠ sep)
    (h : pieces sep bs = p :: ps) : pieces sep (b :: bs) = (b :: p) :: ps := by
  rw [pieces, if_neg hb, h]

/-- Every separator cuts: the pieces of the two sides stand one after the other. -/
theorem pieces_append_cons (sep : UInt8) (l r : Bytes) :
    pieces sep (l ++ sep :: r) = pieces sep l ++ pieces sep r := by
  induction l with
  | nil => simp [pieces]
  | cons b l ih =>
      by_cases hb : b = sep
      · subst hb
        simp [pieces, ih]
      · cases hl : pieces sep l with
        | nil => exact absurd hl (pieces_ne_nil sep l)
        | cons p ps =>
            rw [hl, List.cons_append] at ih
            rw [List.cons_append, pieces_cons_of_ne hb ih, pieces_cons_of_ne hb hl,
              List.cons_append]

/-- A text without separators is its only piece. -/
theorem pieces_of_not_mem {sep : UInt8} {bs : Bytes} (h : sep ∉ bs) : pieces sep bs = [bs] := by
  induction bs with
  | nil => rfl
  | cons b bs ih =>
      rw [List.mem_cons, not_or] at h
      exact pieces_cons_of_ne (Ne.symm h.1) (ih h.2)

/-- No piece holds a separator. -/
theorem not_mem_of_mem_pieces {sep : UInt8} {bs p : Bytes} (h : p ∈ pieces sep bs) : sep ∉ p := by
  induction bs generalizing p with
  | nil =>
      rw [pieces_nil, List.mem_singleton] at h
      simp [h]
  | cons b bs ih =>
      by_cases hb : b = sep
      · rw [pieces, if_pos hb, List.mem_cons] at h
        rcases h with rfl | h
        · simp
        · exact ih h
      · cases hbs : pieces sep bs with
        | nil => exact absurd hbs (pieces_ne_nil sep bs)
        | cons q qs =>
            rw [pieces_cons_of_ne hb hbs, List.mem_cons] at h
            rcases h with rfl | h
            · have hq : sep ∉ q := ih (hbs ▸ List.mem_cons_self)
              simp [Ne.symm hb, hq]
            · exact ih (hbs ▸ List.mem_cons_of_mem q h)

theorem joined_cons_cons (sep p q : Bytes) (ps : List Bytes) :
    joined sep (p :: q :: ps) = p ++ sep ++ joined sep (q :: ps) := rfl

/-- Texts without separators are the pieces of what they join to. -/
theorem pieces_joined {sep : UInt8} {ps : List Bytes} (hne : ps ≠ []) (h : ∀ p ∈ ps, sep ∉ p) :
    pieces sep (joined [sep] ps) = ps := by
  induction ps with
  | nil => contradiction
  | cons p ps ih =>
      have hp : pieces sep p = [p] := pieces_of_not_mem (h p List.mem_cons_self)
      cases ps with
      | nil => exact hp
      | cons q qs =>
          have hrest := ih (List.cons_ne_nil q qs) fun r hr => h r (List.mem_cons_of_mem p hr)
          rw [joined_cons_cons, List.append_assoc, List.singleton_append, pieces_append_cons, hp,
            hrest, List.singleton_append]

/-- **Pieces**: the pieces of a text are the one non-empty list of texts without separators that
joins to it. -/
theorem pieces_eq_iff {sep : UInt8} {bs : Bytes} {ps : List Bytes} :
    pieces sep bs = ps ↔ ps ≠ [] ∧ bs = joined [sep] ps ∧ ∀ p ∈ ps, sep ∉ p := by
  constructor
  · rintro rfl
    exact ⟨pieces_ne_nil sep bs, (joined_pieces sep bs).symm, fun p => not_mem_of_mem_pieces⟩
  · rintro ⟨hne, rfl, h⟩
    exact pieces_joined hne h

/-- There is one piece more than there are separators. -/
theorem length_pieces (sep : UInt8) (bs : Bytes) :
    (pieces sep bs).length = bs.count sep + 1 := by
  induction bs with
  | nil => rfl
  | cons b bs ih =>
      by_cases hb : b = sep
      · rw [pieces, if_pos hb, List.length_cons, ih, hb, List.count_cons_self]
      · cases hbs : pieces sep bs with
        | nil => exact absurd hbs (pieces_ne_nil sep bs)
        | cons p ps =>
            rw [hbs, List.length_cons] at ih
            rw [pieces_cons_of_ne hb hbs, List.length_cons, ih, List.count_cons_of_ne hb]

/-- Each of the texts stands in what they join to. -/
theorem infix_joined {sep p : Bytes} {ps : List Bytes} (h : p ∈ ps) : p <:+: joined sep ps := by
  induction ps with
  | nil => simp at h
  | cons q qs ih =>
      cases qs with
      | nil =>
          obtain rfl := List.mem_singleton.1 h
          exact List.infix_rfl
      | cons r rs =>
          rw [joined_cons_cons]
          rcases List.mem_cons.1 h with rfl | h
          · exact (List.prefix_append p _).isInfix.trans (List.prefix_append _ _).isInfix
          · exact (ih h).trans (List.suffix_append _ _).isInfix

/-- A piece stands in the text it is cut from. -/
theorem infix_of_mem_pieces {sep : UInt8} {bs p : Bytes} (h : p ∈ pieces sep bs) : p <:+: bs := by
  have hj : p <:+: joined [sep] (pieces sep bs) := infix_joined h
  rwa [joined_pieces] at hj

/-- A byte of what is joined comes from a separator or from one of the texts. -/
theorem mem_of_mem_joined {sep : Bytes} {ps : List Bytes} {b : UInt8} (h : b ∈ joined sep ps) :
    b ∈ sep ∨ ∃ p ∈ ps, b ∈ p := by
  induction ps with
  | nil => simp at h
  | cons p ps ih =>
      cases ps with
      | nil => exact Or.inr ⟨p, List.mem_cons_self, h⟩
      | cons q qs =>
          rw [joined_cons_cons, List.mem_append, List.mem_append] at h
          rcases h with (h | h) | h
          · exact Or.inr ⟨p, List.mem_cons_self, h⟩
          · exact Or.inl h
          · rcases ih h with h | ⟨r, hr, hb⟩
            · exact Or.inl h
            · exact Or.inr ⟨r, List.mem_cons_of_mem p hr, hb⟩

/-- What is joined with a longer separator is joined with its first part, the rest of it standing
in front of every later text. -/
theorem joined_append_sep (sep pad p : Bytes) (ps : List Bytes) :
    joined (sep ++ pad) (p :: ps) = joined sep (p :: ps.map (pad ++ ·)) := by
  induction ps generalizing p with
  | nil => rfl
  | cons q qs ih =>
      rw [joined_cons_cons, ih q, List.map_cons, joined_cons_cons]
      cases qs with
      | nil => simp
      | cons r rs => simp [joined_cons_cons]

/-! ## The first separator -/

/-- **First cut**: what stands before the cut holds no separator. -/
theorem cut?_eq_some_iff {sep : UInt8} {bs l r : Bytes} :
    cut? sep bs = some (l, r) ↔ sep ∉ l ∧ bs = l ++ sep :: r := by
  induction bs generalizing l with
  | nil => simp [cut?]
  | cons b bs ih =>
      by_cases hb : b = sep
      · subst hb
        rw [cut?, if_pos rfl]
        constructor
        · intro h
          obtain ⟨rfl, rfl⟩ := Prod.mk.injEq .. ▸ Option.some.inj h
          simp
        · rintro ⟨hl, h⟩
          cases l with
          | nil => simpa using h
          | cons c l =>
              -- a separator cannot stand inside the left side
              rw [List.cons_append, List.cons.injEq] at h
              exact absurd (h.1 ▸ List.mem_cons_self) hl
      · rw [cut?, if_neg hb, Option.map_eq_some_iff]
        constructor
        · rintro ⟨⟨l', r'⟩, hcut, h⟩
          obtain ⟨rfl, rfl⟩ := Prod.mk.injEq .. ▸ h
          obtain ⟨hl, rfl⟩ := ih.1 hcut
          exact ⟨by simp [Ne.symm hb, hl], rfl⟩
        · rintro ⟨hl, h⟩
          cases l with
          | nil => exact absurd (List.cons.inj h).1 hb
          | cons c l =>
              rw [List.cons_append, List.cons.injEq] at h
              obtain ⟨rfl, rfl⟩ := h
              rw [List.mem_cons, not_or] at hl
              exact ⟨(l, r), ih.2 ⟨hl.2, rfl⟩, rfl⟩

/-! ## The end of a text -/

/-- Stripping is dropping from the right. -/
theorem stripEnd_eq_rdropWhile (p : UInt8 → Bool) (bs : Bytes) :
    stripEnd p bs = bs.rdropWhile p := rfl

/-- **Stripping**: what is left is followed by bytes of the kind stripped and does not end in
one. -/
theorem stripEnd_eq_iff {p : UInt8 → Bool} {bs t : Bytes} :
    stripEnd p bs = t ↔
      ∃ tail, bs = t ++ tail ∧ (∀ b ∈ tail, p b = true) ∧ ∀ b ∈ t.getLast?, p b = false := by
  rw [stripEnd_eq_rdropWhile]
  constructor
  · rintro rfl
    refine ⟨bs.rtakeWhile p, List.rdropWhile_append_rtakeWhile.symm,
      fun b => List.mem_rtakeWhile_imp, ?_⟩
    intro b hb
    obtain ⟨hne, rfl⟩ := List.mem_getLast?_eq_getLast hb
    exact Bool.eq_false_iff.2 (List.rdropWhile_last_not p bs hne)
  · rintro ⟨tail, rfl, htail, hlast⟩
    induction tail using List.reverseRecOn with
    | nil =>
        rw [List.append_nil, List.rdropWhile_eq_self_iff]
        intro hne
        rw [hlast _ (List.getLast_mem_getLast? hne)]
        simp
    | append_singleton tail b ih =>
        have hb : p b = true := htail b (by simp)
        rw [← List.append_assoc, List.rdropWhile_concat_pos p _ b hb]
        exact ih fun c hc => htail c (List.mem_append_left _ hc)

/-- Whatever is stripped anyway may be put at the end. -/
theorem stripEnd_append {p : UInt8 → Bool} {tail : Bytes} (h : ∀ b ∈ tail, p b = true) (l : Bytes) :
    stripEnd p (l ++ tail) = stripEnd p l := by
  obtain ⟨rest, hl, hrest, hlast⟩ := stripEnd_eq_iff.1 (Eq.refl (stripEnd p l))
  refine stripEnd_eq_iff.2 ⟨rest ++ tail, ?_, ?_, hlast⟩
  · rw [← List.append_assoc, ← hl]
  · simpa [or_imp, forall_and] using ⟨hrest, h⟩

end Bytes

end ZincBind

import ZincBind.Bytes

/-!
# ZincBind.Proofs.Text.Ordering

Sorted lists of texts.  `Bytes.sorted` gives the one ascending arrangement of a list
(`pairwise_sorted`, `sorted_eq_of_perm`), which is strictly ascending when no text stands in it
twice (`pairwise_lt_sorted`).

Ordered sets of texts.  `Bytes.ordered` gives the one strictly ascending list of the texts in a list
(`pairwise_ordered`, `ordered_eq_of_mem_iff`).
-/

namespace ZincBind

namespace Bytes

/-- Insertion keeps a list ascending. -/
theorem pairwise_insertSorted (x : Bytes) {ys : List Bytes} (h : ys.Pairwise (· ≤ ·)) :
    (insertSorted x ys).Pairwise (· ≤ ·) := by
  induction ys with
  | nil => exact List.pairwise_singleton (· ≤ ·) x
  | cons y ys ih =>
      obtain ⟨hy, hys⟩ := List.pairwise_cons.1 h
      rw [insertSorted]
      by_cases hlt : y < x
      · rw [if_pos hlt, List.pairwise_cons]
        refine ⟨fun z hz => ?_, ih hys⟩
        cases List.mem_cons.1 ((insertSorted_perm x ys).mem_iff.1 hz) with
        | inl hzx => exact hzx ▸ List.le_of_lt hlt
        | inr hz => exact hy z hz
      · have hxy : x ≤ y := List.not_lt.1 hlt
        rw [if_neg hlt, List.pairwise_cons]
        refine ⟨fun z hz => ?_, h⟩
        cases List.mem_cons.1 hz with
        | inl hzy => exact hzy ▸ hxy
        | inr hz => exact List.le_trans hxy (hy z hz)

/-- Sorting gives an ascending list. -/
theorem pairwise_sorted (xs : List Bytes) : (sorted xs).Pairwise (· ≤ ·) := by
  induction xs with
  | nil => exact List.Pairwise.nil
  | cons x xs ih => exact pairwise_insertSorted x ih

/-- **One arrangement**: in which order the texts come does not matter. -/
theorem sorted_eq_of_perm {xs ys : List Bytes} (h : xs.Perm ys) : sorted xs = sorted ys := by
  have hperm : (sorted xs).Perm (sorted ys) :=
    (sorted_perm xs).trans (h.trans (sorted_perm ys).symm)
  exact hperm.eq_of_pairwise (fun _ _ _ _ => List.le_antisymm) (pairwise_sorted xs)
    (pairwise_sorted ys)

/-- Distinct texts come out strictly ascending. -/
theorem pairwise_lt_sorted {xs : List Bytes} (h : xs.Nodup) : (sorted xs).Pairwise (· < ·) := by
  have hne : (sorted xs).Nodup := (sorted_perm xs).nodup_iff.2 h
  refine ((pairwise_sorted xs).and hne).imp fun {x y} hxy => ?_
  exact (List.le_iff_lt_or_eq.1 hxy.1).resolve_right hxy.2

@[simp] theorem mem_sorted {x : Bytes} {xs : List Bytes} : x ∈ sorted xs ↔ x ∈ xs :=
  (sorted_perm xs).mem_iff

/-! ## Ordered sets -/

/-- Putting a text into an ordered set leaves it strictly ascending. -/
theorem pairwise_insertOrdered (x : Bytes) {ys : List Bytes} (h : ys.Pairwise (· < ·)) :
    (insertOrdered x ys).Pairwise (· < ·) := by
  induction ys with
  | nil => exact List.pairwise_singleton (· < ·) x
  | cons y ys ih =>
      obtain ⟨hy, hys⟩ := List.pairwise_cons.1 h
      rw [insertOrdered]
      by_cases heq : x = y
      · rwa [if_pos heq]
      · rw [if_neg heq]
        by_cases hlt : x < y
        · rw [if_pos hlt, List.pairwise_cons]
          refine ⟨fun z hz => ?_, h⟩
          cases List.mem_cons.1 hz with
          | inl hzy => exact hzy ▸ hlt
          | inr hz => exact List.lt_trans hlt (hy z hz)
        · have hyx : y < x :=
            (List.le_iff_lt_or_eq.1 (List.not_lt.1 hlt)).resolve_right (Ne.symm heq)
          rw [if_neg hlt, List.pairwise_cons]
          refine ⟨fun z hz => ?_, ih hys⟩
          cases mem_insertOrdered.1 hz with
          | inl hzx => exact hzx ▸ hyx
          | inr hz => exact hy z hz

/-- An ordered set is strictly ascending. -/
theorem pairwise_ordered (xs : List Bytes) : (ordered xs).Pairwise (· < ·) := by
  induction xs with
  | nil => exact List.Pairwise.nil
  | cons x xs ih => exact pairwise_insertOrdered x ih

/-- Strictly ascending lists with the same members are the same list. -/
theorem eq_of_mem_iff {xs ys : List Bytes} (hxs : xs.Pairwise (· < ·)) (hys : ys.Pairwise (· < ·))
    (h : ∀ x, x ∈ xs ↔ x ∈ ys) : xs = ys := by
  have hnodup : ∀ {zs : List Bytes}, zs.Pairwise (· < ·) → zs.Nodup := by
    intro zs hzs
    refine hzs.imp fun {x y} hlt heq => ?_
    exact List.lt_irrefl y (heq ▸ hlt)
  have hperm : xs.Perm ys := (List.perm_ext_iff_of_nodup (hnodup hxs) (hnodup hys)).2 h
  exact hperm.eq_of_pairwise (fun _ _ _ _ hlt hgt => absurd hgt (List.lt_asymm hlt)) hxs hys

/-- **One ordered set**: neither order nor repetition matters. -/
theorem ordered_eq_of_mem_iff {xs ys : List Bytes} (h : ∀ x, x ∈ xs ↔ x ∈ ys) :
    ordered xs = ordered ys :=
  eq_of_mem_iff (pairwise_ordered xs) (pairwise_ordered ys) fun x => by
    rw [mem_ordered, mem_ordered, h]

end Bytes

end ZincBind

import Mathlib.Data.List.Forall2

/-!
# ZincBind.Proofs.Traversal

Traversals that stop at the first failure.  The readers of lists (arguments of a line, lines of a
file) all go on the same way: a failing element ends the run, a successful one stands in front of
what the rest gives.  `map_eq_ok_iff` and `map_eq_error_iff` read such a step off its result, and
for `mapM` the two possible ends are

* `mapM_eq_ok_iff` — it succeeds when every element does, result by result;
* `mapM_eq_error_iff` — it fails with the error of the first element that does.

Where a failure has no reason, `mapM_eq_some_iff` says the same of success.
-/

namespace ZincBind

namespace Traversal

variable {α β ε : Type}

theorem map_eq_ok_iff {r : Except ε α} {g : α → β} {b : β} :
    r.map g = .ok b ↔ ∃ a, r = .ok a ∧ g a = b := by
  cases r with
  | error e => simp [Except.map]
  | ok a => simp [Except.map]

theorem map_eq_error_iff {r : Except ε α} {g : α → β} {e : ε} :
    r.map g = .error e ↔ r = .error e := by
  cases r with
  | error e => simp [Except.map]
  | ok a => simp [Except.map]

/-! ## One element -/

theorem mapM_cons_of_error {f : α → Except ε β} {x : α} {e : ε} (h : f x = .error e)
    (xs : List α) : (x :: xs).mapM f = .error e := by
  rw [List.mapM_cons, h]
  rfl

theorem mapM_cons_of_ok {f : α → Except ε β} {x : α} {y : β} (h : f x = .ok y) (xs : List α) :
    (x :: xs).mapM f = (xs.mapM f).map (y :: ·) := by
  rw [List.mapM_cons, h]
  cases xs.mapM f with
  | error e => rfl
  | ok ys => rfl

/-! ## The whole list -/

/-- **Success**: every element succeeds, and the results are in order. -/
theorem mapM_eq_ok_iff {f : α → Except ε β} {xs : List α} {ys : List β} :
    xs.mapM f = .ok ys ↔ List.Forall₂ (fun x y => f x = .ok y) xs ys := by
  induction xs generalizing ys with
  | nil =>
      rw [List.mapM_nil, List.forall₂_nil_left_iff]
      exact ⟨fun h => (Except.ok.inj h).symm, fun h => h ▸ rfl⟩
  | cons x xs ih =>
      rw [List.forall₂_cons_left_iff]
      cases hx : f x with
      | error e =>
          rw [mapM_cons_of_error hx]
          simp
      | ok y =>
          rw [mapM_cons_of_ok hx, map_eq_ok_iff]
          simp only [ih, Except.ok.injEq]
          constructor
          · intro h
            obtain ⟨ys', hys, rfl⟩ := h
            exact ⟨y, ys', rfl, hys, rfl⟩
          · intro h
            obtain ⟨_, ys', rfl, hys, rfl⟩ := h
            exact ⟨ys', hys, rfl⟩

/-- **First failure**: some element fails with this error, and all before it succeed. -/
theorem mapM_eq_error_iff {f : α → Except ε β} {xs : List α} {e : ε} :
    xs.mapM f = .error e ↔
      ∃ before x after, xs = before ++ x :: after ∧ (∀ y ∈ before, ∃ a, f y = .ok a) ∧
        f x = .error e := by
  constructor
  · intro h
    induction xs with
    | nil => contradiction
    | cons x xs ih =>
        cases hx : f x with
        | error e' =>
            rw [mapM_cons_of_error hx] at h
            obtain rfl := Except.error.inj h
            exact ⟨[], x, xs, rfl, by simp, hx⟩
        | ok y =>
            rw [mapM_cons_of_ok hx, map_eq_error_iff] at h
            obtain ⟨before, z, after, rfl, hbefore, hz⟩ := ih h
            refine ⟨x :: before, z, after, rfl, ?_, hz⟩
            intro w hw
            cases List.mem_cons.1 hw with
            | inl hw => exact ⟨y, hw ▸ hx⟩
            | inr hw => exact hbefore w hw
  · intro h
    obtain ⟨before, x, after, rfl, hbefore, hx⟩ := h
    induction before with
    | nil => exact mapM_cons_of_error hx after
    | cons y before ih =>
        obtain ⟨a, ha⟩ := hbefore y List.mem_cons_self
        rw [List.cons_append, mapM_cons_of_ok ha, map_eq_error_iff]
        exact ih fun w hw => hbefore w (List.mem_cons_of_mem y hw)

/-- **Success** without reasons for failure. -/
theorem mapM_eq_some_iff {f : α → Option β} {xs : List α} {ys : List β} :
    xs.mapM f = some ys ↔ List.Forall₂ (fun x y => f x = some y) xs ys := by
  induction xs generalizing ys with
  | nil => simp [eq_comm]
  | cons x xs ih =>
      simp only [List.mapM_cons, List.forall₂_cons_left_iff, Option.bind_eq_bind,
        Option.bind_eq_some_iff, Option.pure_def, Option.some.injEq, ih]
      constructor
      · rintro ⟨y, hy, ys, hys, rfl⟩
        exact ⟨y, ys, hy, hys, rfl⟩
      · rintro ⟨y, ys, hy, hys, rfl⟩
        exact ⟨y, hy, ys, hys, rfl⟩

/-- Elements that each succeed in the same way. -/
theorem mapM_map_of_some {γ : Type} {f : α → β} {g : β → Option γ} {h : α → γ} {xs : List α}
    (hall : ∀ x ∈ xs, g (f x) = some (h x)) : (xs.map f).mapM g = some (xs.map h) := by
  rw [mapM_eq_some_iff, List.forall₂_map_left_iff, List.forall₂_map_right_iff, List.forall₂_same]
  exact hall

/-- What is done with the results of a traversal may use that there is one for each element. -/
theorem map_mapM_congr {m : Type → Type} [Monad m] [LawfulMonad m] {γ : Type} {f : α → m β}
    {xs : List α} {g h : List β → γ} (heq : ∀ ys, ys.length = xs.length → g ys = h ys) :
    g <$> xs.mapM f = h <$> xs.mapM f := by
  induction xs generalizing g h with
  | nil => simp [heq [] rfl]
  | cons x xs ih =>
      have hrest (y : β) :
          (fun ys => g (y :: ys)) <$> xs.mapM f = (fun ys => h (y :: ys)) <$> xs.mapM f :=
        ih fun ys hys => heq _ (congrArg (· + 1) hys)
      simp only [List.mapM_cons, map_bind, bind_pure_comp, Functor.map_map, hrest]

end Traversal

end ZincBind

import ZincBind.Proofs.Emit.Names

/-!
# ZincBind.Proofs.Emit.Execution

What the program of a predicate's file does with a constraint item: it refuses an item that is none
of the predicate, and otherwise converts its expressions in their order (`load_program`); the text
it writes has what they were converted to in the same order (`print_load_program`).
-/

namespace ZincBind

open Bytes PredicateFile

/-! ## Reading an item -/

section

variable {E V M : Type} (convert : Bytes → E → Action M V) (item : Item E)

/-- Why a predicate refuses an item: it has another name, or another number of expressions. -/
def Predicate.refusal? (p : Predicate) : Option Bytes :=
  if item.id ≠ p.name then
    some (utf8 "'" ++ p.name ++ utf8 "' expected but received '" ++ item.id ++ utf8 "'")
  else if item.exprs.length ≠ p.arity then
    some (decimal p.arity ++ utf8 " args expected but received " ++ decimal item.exprs.length)
  else none

/-- What reading an item has to do: refuse it, or convert each of its expressions as the argument at
its position asks for. -/
def Predicate.readItem (p : Predicate) : Action M (List V) :=
  match p.refusal? item with
  | some message => throw (.refused message)
  | none => (p.args.zip item.exprs).mapM fun (a, e) => convert a.type.converter e

/-- An item that is not refused has an expression for each argument. -/
theorem length_of_refusal? {p : Predicate} (h : p.refusal? item = none) :
    item.exprs.length = p.args.length := by
  by_contra hcount
  rw [Predicate.refusal?, if_pos (show item.exprs.length ≠ p.arity from hcount)] at h
  split at h <;> contradiction

/-- What has halted does not go on. -/
theorem throw_bind {α β : Type} (halt : Halt) (k : α → Action M β) :
    (throw halt : Action M α) >>= k = throw halt := rfl

/-- The values read before stay in front. -/
theorem run_readSteps {args : List Arg} {n : Nat} (hlength : item.exprs.length = n + args.length)
    (values : List V) :
    (readSteps n args).foldlM (Step.run convert item) values =
      (values ++ ·) <$> (args.zip (item.exprs.drop n)).mapM fun (a, e) =>
        convert a.type.converter e := by
  induction args generalizing n values with
  | nil => simp [readSteps]
  | cons a as ih =>
      have hn : n < item.exprs.length := by
        rw [hlength, List.length_cons]
        omega
      have hdrop : item.exprs.drop n = item.exprs[n] :: item.exprs.drop (n + 1) :=
        List.drop_eq_getElem_cons hn
      have hrest : item.exprs.length = n + 1 + as.length := by
        rw [hlength, List.length_cons]
        omega
      have hstep : Step.run convert item values (.read a.type.converter n) =
          (convert a.type.converter item.exprs[n] >>= fun v => pure (values ++ [v])) := by
        rw [Step.run, List.getElem?_eq_getElem hn]
      have hsteps : readSteps n (a :: as) =
          .read a.type.converter n :: readSteps (n + 1) as := by
        rw [readSteps, List.zipIdx_cons, List.map_cons]
        rfl
      rw [hsteps, List.foldlM_cons, hstep, hdrop, List.zip_cons_cons, List.mapM_cons]
      simp only [bind_assoc, pure_bind, ih hrest, map_eq_pure_bind, List.append_assoc,
        List.singleton_append]

/-- The checks refuse what is to be refused, and let pass everything else. -/
theorem run_checkSteps (p : Predicate) (rest : List Step) :
    (checkSteps p ++ rest).foldlM (Step.run convert item) [] =
      match p.refusal? item with
      | some message => throw (.refused message)
      | none => rest.foldlM (Step.run convert item) [] := by
  simp only [checkSteps, List.cons_append, List.nil_append, List.foldlM_cons, Step.run, Side.value,
    Datum.text.injEq, Datum.number.injEq, Message.fill, List.map_cons, List.map_nil, Datum.shown,
    filled, List.flatten_cons, List.flatten_nil, List.append_nil, List.append_assoc,
    Predicate.refusal?]
  by_cases hid : item.id = p.name
  · by_cases hcount : item.exprs.length = p.arity
    · simp only [hid, hcount, ne_eq, not_true_eq_false, if_true, if_false, pure_bind]
    · simp only [hid, hcount, ne_eq, not_true_eq_false, not_false_eq_true, if_true, if_false,
        pure_bind, throw_bind]
  · simp only [hid, ne_eq, not_false_eq_true, if_true, if_false, throw_bind]

/-- The steps read the item. -/
theorem run_program (p : Predicate) :
    p.program.steps.foldlM (Step.run convert item) [] = p.readItem convert item := by
  rw [Predicate.program, run_checkSteps, Predicate.readItem]
  cases hrefusal : p.refusal? item with
  | some message => rfl
  | none =>
      have hlength : item.exprs.length = 0 + p.args.length := by
        rw [length_of_refusal? item hrefusal, Nat.zero_add]
      have hread := run_readSteps convert item hlength []
      simpa only [List.nil_append, id_map', List.drop_zero] using hread

/-- What is stored under the numbers of the arguments, counted from `n` on. -/
theorem filterMap_stored (args : List Arg) (n : Nat) (vs : List V) :
    ((args.zipIdx n).map fun (a, i) => (a.name, i)).filterMap
        (fun (field, i) => vs[i]?.map (field, ·)) =
      (args.map Arg.name).zip (vs.drop n) := by
  induction args generalizing n with
  | nil => rfl
  | cons a as ih =>
      rw [List.zipIdx_cons, List.map_cons, List.map_cons]
      by_cases hn : n < vs.length
      · rw [List.drop_eq_getElem_cons hn, List.zip_cons_cons, ← ih]
        simp [List.getElem?_eq_getElem hn]
      · have hnone : vs[n]? = none := List.getElem?_eq_none (Nat.not_lt.1 hn)
        have hdrop : vs.drop n = [] := List.drop_eq_nil_of_le (Nat.not_lt.1 hn)
        have hrest := ih (n + 1)
        rw [List.drop_eq_nil_of_le (by omega), List.zip_nil_right] at hrest
        rw [hdrop, List.zip_nil_right]
        simpa [List.filterMap_cons, hnone] using hrest

/-- **Reading**: the program stores what the expression at the position of an argument converts to
in the field of this argument. -/
theorem load_program (p : Predicate) :
    p.program.load convert item =
      (fun vs => (p.args.map Arg.name).zip vs) <$> p.readItem convert item := by
  have hstored (vs : List V) : p.program.stored.filterMap
      (fun (field, i) => vs[i]?.map (field, ·)) = (p.args.map Arg.name).zip vs :=
    filterMap_stored p.args 0 vs
  simp only [Program.load, run_program, hstored, map_eq_pure_bind]

/-! ## Writing it again -/

/-- Texts with separators between them. -/
theorem filled_separated (open_ sep close x : Bytes) (xs : List Bytes) :
    filled (open_ :: (List.replicate xs.length sep ++ [close])) (x :: xs) =
      open_ ++ joined sep (x :: xs) ++ close := by
  induction xs generalizing open_ x with
  | nil => simp [filled]
  | cons y ys ih =>
      rw [List.length_cons, List.replicate_succ, List.cons_append, filled, ih, joined_cons_cons]
      simp only [List.append_assoc]

/-- Asked for by name, values come in the order of the names. -/
theorem map_lookup_zip {names : List Bytes} (hdistinct : names.Nodup) {vs : List V}
    (hlength : names.length = vs.length) :
    names.map (fun name => (names.zip vs).lookup name) = vs.map some := by
  have hkeys : ((names.zip vs).map Prod.fst).Nodup := by
    rwa [List.map_fst_zip hlength.le]
  calc names.map (fun name => (names.zip vs).lookup name)
      = ((names.zip vs).map Prod.fst).map (fun name => (names.zip vs).lookup name) := by
        rw [List.map_fst_zip hlength.le]
    _ = ((names.zip vs).map Prod.snd).map some := by
        rw [List.map_map, List.map_map]
        exact List.map_congr_left fun entry hentry => lookup_of_mem hkeys hentry
    _ = vs.map some := by rw [List.map_snd_zip hlength.ge]

/-- **Writing**: fields are written in the order of the arguments. -/
theorem print_program {p : Predicate} (hp : p.IsDeclarable)
    (hdistinct : (p.args.map Arg.name).Nodup) (write : V → Bytes) {vs : List V}
    (hlength : vs.length = p.args.length) :
    p.program.print write ((p.args.map Arg.name).zip vs) =
      p.name ++ utf8 "(" ++ joined (utf8 ", ") (vs.map write) ++ utf8 ")\n" := by
  have hnamed : (p.args.map Arg.name).length = vs.length := by rw [List.length_map, hlength]
  have hfields : p.args.map (fun a => Piece.shown write ((p.args.map Arg.name).zip vs)
      (.field a.name)) = vs.map write := by
    have hlookup := congrArg (List.map fun found => (found.map write).getD [])
      (map_lookup_zip hdistinct hnamed)
    simpa only [List.map_map, Function.comp_def, Option.map_some, Option.getD_some,
      Piece.shown] using hlookup
  have hshown : p.program.text.operands.map
      (Piece.shown write ((p.args.map Arg.name).zip vs)) = p.name :: vs.map write := by
    rw [Predicate.program, List.map_cons, List.map_map]
    exact congrArg (p.name :: ·) hfields
  have hvalues : vs ≠ [] := by
    rintro rfl
    exact hp.args_ne_nil (List.length_eq_zero_iff.1 hlength.symm)
  obtain ⟨v, rest, rfl⟩ := List.exists_cons_of_ne_nil hvalues
  have harity : p.arity - 1 = (rest.map write).length := by
    rw [Predicate.arity, ← hlength, List.length_cons, List.length_map, Nat.add_sub_cancel]
  have htemplate : p.program.text.template =
      [] :: utf8 "(" :: (List.replicate (rest.map write).length (utf8 ", ") ++ [utf8 ")\n"]) := by
    rw [← harity]
    rfl
  rw [Program.print, Message.fill, htemplate, hshown, filled, List.map_cons, filled_separated]
  simp only [List.nil_append, List.append_assoc]

/-- **Writing back**: what an item is read as is written with its expressions in their order. -/
theorem print_load_program {p : Predicate} (hp : p.IsDeclarable)
    (hdistinct : (p.args.map Arg.name).Nodup) (write : V → Bytes) :
    p.program.print write <$> p.program.load convert item =
      (fun vs => p.name ++ utf8 "(" ++ joined (utf8 ", ") (vs.map write) ++ utf8 ")\n") <$>
        p.readItem convert item := by
  rw [load_program, Functor.map_map, Predicate.readItem]
  cases hrefusal : p.refusal? item with
  | some message => rfl
  | none =>
      have hzip : (p.args.zip item.exprs).length = p.args.length := by
        rw [List.length_zip, length_of_refusal? item hrefusal, Nat.min_self]
      exact Traversal.map_mapM_congr fun vs hvs =>
        print_program hp hdistinct write (hvs.trans hzip)

end

end ZincBind

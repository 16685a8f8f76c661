import ZincBind.Command.Run
import ZincBind.Proofs.Delivery.Placement

/-!
# ZincBind.Proofs.Command.Stages

A run stage by stage, for any search for the files of a pattern.  Before anything is delivered the
output directory is checked, the sources are read and all of them are parsed; `predicates_eq_ok_iff`
says when all of this succeeds.  What follows is one of three ends, each with everything the run
leaves behind: a failure before delivery (`run_of_predicates_error`), printing (`run_of_debug`) and
writing (`run_of_write`).
-/

namespace ZincBind

/-- A failed run that leaves no trace. -/
structure Outcome.FailsCleanly (o : Outcome) (fs : FileSystem) (e : RunError) : Prop where
  result : o.result = .error e
  files : o.files = fs
  stdout : o.stdout = []
  writes : o.writes = []

/-- The program searches for files by its own search. -/
theorem runBy_files : runBy Glob.files? = run := rfl

namespace Run

open Traversal

/-- The predicates an input stands for: those of its sources one after the other, every source
being accepted. -/
def Reads (search : Search) (fs : FileSystem) (stdin : Stream) (input : Bytes)
    (ps : List Predicate) : Prop :=
  ∃ sources pss, Source.readBy search fs stdin input = .ok sources ∧
    List.Forall₂ (fun source qs => DeclarationFile.parse source.text = .ok qs) sources pss ∧
    ps = pss.flatten

variable {search : Search}

/-! ## Before delivery -/

/-- **Sources**: they are parsed when each of them is, and the predicates stand in their order. -/
theorem parseSources_eq_ok_iff {sources : List Source} {ps : List Predicate} :
    parseSources sources = .ok ps ↔
      ∃ pss, List.Forall₂ (fun source qs => DeclarationFile.parse source.text = .ok qs) sources pss ∧
        ps = pss.flatten := by
  induction sources generalizing ps with
  | nil =>
      simp only [parseSources, List.forall₂_nil_left_iff, exists_eq_left, List.flatten_nil,
        Except.ok.injEq]
      exact eq_comm
  | cons source rest ih =>
      rw [parseSources]
      simp only [List.forall₂_cons_left_iff]
      cases hparse : DeclarationFile.parse source.text with
      | error e => simp
      | ok qs =>
          simp only [map_eq_ok_iff, ih, Except.ok.injEq]
          constructor
          · intro h
            obtain ⟨_, ⟨pss, hpss, rfl⟩, rfl⟩ := h
            exact ⟨qs :: pss, ⟨qs, pss, rfl, hpss, rfl⟩, rfl⟩
          · intro h
            obtain ⟨_, ⟨_, pss, rfl, hpss, rfl⟩, rfl⟩ := h
            exact ⟨pss.flatten, ⟨pss, hpss, rfl⟩, rfl⟩

/-- **Success before delivery**: the output directory passes its check, and the input can be had
and is accepted. -/
theorem predicates_eq_ok_iff {fs : FileSystem} {stdin : Stream} {r : Request}
    {ps : List Predicate} :
    predicates search fs stdin r = .ok ps ↔
      checkOutput fs r = .ok () ∧ Reads search fs stdin r.input ps := by
  unfold predicates Reads
  cases checkOutput fs r with
  | error e => simp [bind, Except.bind]
  | ok u =>
      cases Source.readBy search fs stdin r.input with
      | error e => simp [bind, Except.bind, Except.mapError]
      | ok sources =>
          simp [bind, Except.bind, Except.mapError, parseSources_eq_ok_iff]

theorem predicates_of_checkOutput_error {fs : FileSystem} {stdin : Stream} {r : Request}
    {e : RunError} (h : checkOutput fs r = .error e) : predicates search fs stdin r = .error e := by
  rw [predicates, h]
  rfl

/-- A run that prints does not look at the directory. -/
theorem checkOutput_of_debug {fs : FileSystem} {r : Request} (h : r.debug = true) :
    checkOutput fs r = .ok () := by
  rw [checkOutput, if_pos h]

/-- A run that writes needs a directory that passes its check. -/
theorem checkOutput_eq_ok_iff {fs : FileSystem} {r : Request} (h : r.debug = false) :
    checkOutput fs r = .ok () ↔ Output.check fs r.output = .ok () := by
  rw [checkOutput, if_neg (by simp [h])]
  cases houtput : r.output with
  | nil =>
      -- nothing leads nowhere
      have hmissing : Output.check fs [] = .error ⟨[], .missing⟩ := rfl
      simp [hmissing]
  | cons b bs =>
      cases Output.check fs (b :: bs) with
      | error e => simp [Except.mapError]
      | ok u => simp [Except.mapError]

theorem Reads.isName {fs : FileSystem} {stdin : Stream} {input : Bytes} {ps : List Predicate}
    (h : Reads search fs stdin input ps) : ∀ p ∈ ps, Grammar.IsName p.name := by
  obtain ⟨sources, pss, -, hparse, rfl⟩ := h
  intro p hp
  obtain ⟨qs, hqs, hp⟩ := List.mem_flatten.1 hp
  have hsource : ∃ source ∈ sources, DeclarationFile.parse source.text = .ok qs := by
    obtain ⟨n, hn, rfl⟩ := List.mem_iff_getElem.1 hqs
    have hlen := hparse.length_eq
    exact ⟨sources[n], List.getElem_mem _, hparse.get (by omega) hn⟩
  obtain ⟨source, -, hsource⟩ := hsource
  exact Output.isName_of_parse hsource p hp

/-! ## The three ends -/

theorem run_of_predicates_error {fs : FileSystem} {stdin : Stream} {s : Settings} {r : Request}
    {e : RunError} (h : predicates search fs stdin r = .error e) :
    (runBy search fs stdin s r).FailsCleanly fs e := by
  rw [runBy, h]
  exact ⟨rfl, rfl, rfl, rfl⟩

theorem run_of_debug {fs : FileSystem} {stdin : Stream} {s : Settings} {r : Request}
    {ps : List Predicate} (h : predicates search fs stdin r = .ok ps) (hdebug : r.debug = true) :
    (runBy search fs stdin s r).result = .ok () ∧ (runBy search fs stdin s r).files = fs ∧
      (runBy search fs stdin s r).stdout =
        (generate s.options ps).flatMap (Print.block r.output) := by
  simp only [runBy, h, deliver, hdebug, if_true, Print.run_none, Except.mapError, and_self]

theorem run_of_write {fs : FileSystem} {stdin : Stream} {s : Settings} {r : Request}
    {ps : List Predicate} (h : predicates search fs stdin r = .ok ps) (hdebug : r.debug = false) :
    (runBy search fs stdin s r).result =
        (Output.write fs r.output (generate s.options ps)).2.mapError .write ∧
      (runBy search fs stdin s r).files = (Output.write fs r.output (generate s.options ps)).1 ∧
      (runBy search fs stdin s r).writes =
        (Output.writing fs r.output (generate s.options ps)).requests := by
  simp only [runBy, h, deliver, hdebug, Bool.false_eq_true, if_false, Output.write]
  cases (Output.writing fs r.output (generate s.options ps)).result with
  | ok u => exact ⟨rfl, rfl, rfl⟩
  | error e => exact ⟨rfl, rfl, rfl⟩

/-! ## Writing after a successful check -/

/-- A run whose predicates all have names that are not too long writes all of its files. -/
theorem run_of_fits {fs : FileSystem} {stdin : Stream} {s : Settings} {r : Request}
    {base : Location} {ps : List Predicate} (hready : Output.Ready fs r.output base)
    (hpreds : predicates search fs stdin r = .ok ps) (hdebug : r.debug = false)
    (hlen : ∀ p ∈ ps, p.name.length ≤ 252) :
    (runBy search fs stdin s r).result = .ok () ∧
      Output.Holds fs base (generate s.options ps) (runBy search fs stdin s r).files := by
  have hnames := (predicates_eq_ok_iff.1 hpreds).2.isName
  have hfits : ∀ f ∈ generate s.options ps, Output.Fits f :=
    Output.fits_of_mem fun p hp => ⟨hnames p hp, hlen p hp⟩
  obtain ⟨after, hwrite, hholds⟩ := Output.write_of_fits hready hfits
  obtain ⟨hresult, hfiles, -⟩ := run_of_write (s := s) hpreds hdebug
  rw [hresult, hfiles, hwrite]
  exact ⟨rfl, hholds⟩

/-- The first predicate with a name that is too long ends the run, and what is generated before it
has been written. -/
theorem run_of_too_long {fs : FileSystem} {stdin : Stream} {s : Settings} {r : Request}
    {base : Location} {front back : List Predicate} {p : Predicate}
    (hready : Output.Ready fs r.output base)
    (hpreds : predicates search fs stdin r = .ok (front ++ p :: back)) (hdebug : r.debug = false)
    (hfront : ∀ q ∈ front, q.name.length ≤ 252) (hp : 252 < p.name.length) :
    (∃ e, (runBy search fs stdin s r).result = .error (.write e)) ∧
      Output.Holds fs base ((generate s.options (front ++ p :: back)).take (front.length + 3))
        (runBy search fs stdin s r).files := by
  have hnames := (predicates_eq_ok_iff.1 hpreds).2.isName
  let units := aggregate s.options (front ++ p :: back) ++ front.map (Predicate.emit s.options)
  have hgenerate : generate s.options (front ++ p :: back) =
      units ++ p.emit s.options :: back.map (Predicate.emit s.options) := by
    simp only [generate, units, List.map_append, List.map_cons, List.append_assoc]
  have htake : (generate s.options (front ++ p :: back)).take (front.length + 3) = units := by
    have hlen : units.length = front.length + 3 := by
      simp only [units, aggregate, List.length_append, List.length_map, List.length_cons,
        List.length_nil]
      omega
    rw [hgenerate, ← hlen, List.take_left]
  have hunits : ∀ f ∈ units, Output.Fits f := Output.fits_of_mem fun q hq =>
    ⟨hnames q (List.mem_append_left _ hq), hfront q hq⟩
  have htoo : Output.IsTooLong (p.emit s.options) :=
    ⟨_, _, isRustFile_emit s.options (hnames p (by simp)), hp⟩
  obtain ⟨after, e, hwrite, hholds⟩ := Output.write_of_too_long hready hunits htoo
    (back.map (Predicate.emit s.options))
  rw [← hgenerate] at hwrite
  obtain ⟨hresult, hfiles, -⟩ := run_of_write (s := s) hpreds hdebug
  rw [htake, hresult, hfiles, hwrite]
  exact ⟨⟨e, rfl⟩, hholds⟩

end Run

end ZincBind

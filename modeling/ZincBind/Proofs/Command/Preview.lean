import ZincBind.Proofs.Command.Stages

/-!
# ZincBind.Proofs.Command.Preview

A run that prints shows what a run that writes would do.  The writing is followed on the level of
single file writes, each a path and a content: `Writing.requests` are those that a writer asks for
as it goes, and `FileSystem.replay` carries writes out again.  Printing and writing then agree
(`preview_agrees`): they fail alike before anything is delivered, and otherwise the blocks that are
printed are the writes in order.
-/

namespace ZincBind

/-- Carry out file writes in order, up to the first that fails. -/
def FileSystem.replay : FileSystem → List FileWrite → FileSystem × Except PathError Unit
  | fs, [] => (fs, .ok ())
  | fs, (path, content) :: rest =>
    match fs.writeFile path content with
    | .ok fs => FileSystem.replay fs rest
    | .error e => (fs, .error e)

namespace Output

open Print

/-- Nothing is asked for out of order. -/
theorem requests_prefix (dir : Bytes) (fs : FileSystem) (files : List OutputFile) :
    (writingFiles dir fs files).requests <+: files.map (request dir) := by
  induction files generalizing fs with
  | nil => exact List.prefix_rfl
  | cons f rest ih =>
      simp only [writingFiles, List.map_cons]
      cases fs.writeFile (request dir f).1 (request dir f).2 with
      | error e => exact (List.prefix_cons_inj _).2 List.nil_prefix
      | ok next => exact (List.prefix_cons_inj _).2 (ih next)

/-- Where all files are written, all of them are asked for. -/
theorem requests_of_ok {dir : Bytes} {fs after : FileSystem} {files : List OutputFile}
    (h : writeFiles dir fs files = (after, .ok ())) :
    (writingFiles dir fs files).requests = files.map (request dir) := by
  induction files generalizing fs with
  | nil => rfl
  | cons f rest ih =>
      obtain ⟨next, hf, hrest⟩ := writeFiles_cons_eq_ok_iff.1 h
      simp only [writingFiles, request, hf, List.map_cons]
      exact congrArg _ (ih hrest)

/-- **Replay**: the writes of files, carried out again, lead to the same file system and end in the
same way. -/
theorem replay_map_request (dir : Bytes) (fs : FileSystem) (files : List OutputFile) :
    fs.replay (files.map (request dir)) =
      ((writeFiles dir fs files).1, (writeFiles dir fs files).2.mapError WriteError.cause) := by
  induction files generalizing fs with
  | nil => rfl
  | cons f rest ih =>
      rw [List.map_cons, request, FileSystem.replay, writeFiles_cons]
      cases fs.writeFile (destination dir f) f.content with
      | error e => rfl
      | ok next => exact ih next

/-- So do those of them that are asked for. -/
theorem replay_requests (dir : Bytes) (fs : FileSystem) (files : List OutputFile) :
    fs.replay (writingFiles dir fs files).requests = fs.replay (files.map (request dir)) := by
  induction files generalizing fs with
  | nil => rfl
  | cons f rest ih =>
      simp only [writingFiles, List.map_cons, request]
      cases hf : fs.writeFile (destination dir f) f.content with
      | error e => simp only [FileSystem.replay, hf]
      | ok next =>
          simp only [FileSystem.replay, hf]
          exact ih next

end Output

namespace Run

open Print

variable {search : Search}

/-- The block that shows a file write. -/
def shown (w : FileWrite) : Bytes :=
  utf8 "// " ++ Banner.render w.1 ++ utf8 "\n" ++ w.2 ++ utf8 "\n"

/-- Printing and writing have the same predicates if the directory passes its check. -/
theorem predicates_debug_eq (search : Search) {fs : FileSystem} {output : Bytes}
    (hcheck : Output.check fs output = .ok ()) (stdin : Stream) (input : Bytes) :
    predicates search fs stdin ⟨input, output, true⟩ =
      predicates search fs stdin ⟨input, output, false⟩ := by
  have hdebug : checkOutput fs ⟨input, output, true⟩ = .ok () := checkOutput_of_debug rfl
  have hwrite : checkOutput fs ⟨input, output, false⟩ = .ok () :=
    (checkOutput_eq_ok_iff rfl).2 hcheck
  rw [predicates, predicates, hdebug, hwrite]

theorem parseSources_ne_write {sources : List Source} (w : WriteError) :
    parseSources sources ≠ .error (.write w) := by
  induction sources with
  | nil => simp [parseSources]
  | cons source rest ih =>
      rw [parseSources]
      cases DeclarationFile.parse source.text with
      | error e => simp
      | ok ps => rwa [Ne, Traversal.map_eq_error_iff]

/-- A failure before delivery is never one of writing. -/
theorem predicates_ne_write {fs : FileSystem} {stdin : Stream} {r : Request} (w : WriteError) :
    predicates search fs stdin r ≠ .error (.write w) := by
  have hcheck : checkOutput fs r ≠ .error (.write w) := by
    rw [checkOutput]
    split
    · simp
    · split
      · simp
      · cases Output.check fs r.output with
        | error e => simp [Except.mapError]
        | ok u => simp [Except.mapError]
  intro h
  cases hc : checkOutput fs r with
  | error e =>
      rw [predicates_of_checkOutput_error hc] at h
      obtain rfl := Except.error.inj h
      exact hcheck hc
  | ok u =>
      rw [predicates, hc] at h
      cases hread : Source.readBy search fs stdin r.input with
      | error e =>
          rw [hread] at h
          simp [bind, Except.bind, Except.mapError] at h
      | ok sources =>
          rw [hread] at h
          exact parseSources_ne_write w h

/-- In a directory that is ready, a run asks for the writes of all its files, in order, up to one
that fails. -/
theorem writes_eq {fs : FileSystem} {stdin : Stream} {s : Settings} {r : Request}
    {base : Location} {ps : List Predicate} (hready : Output.Ready fs r.output base)
    (hpreds : predicates search fs stdin r = .ok ps) (hdebug : r.debug = false) :
    (runBy search fs stdin s r).writes = (Output.writingFiles r.output
      (fs.set (base ++ [OutputFile.builtinsDir]) .directory) (generate s.options ps)).requests := by
  rw [(run_of_write hpreds hdebug).2.2, Output.writing, hready.makeDirectories]

/-- What a run that writes leaves is what its writes leave after the directory for predicates has
been made. -/
theorem replay_files_eq {fs : FileSystem} {stdin : Stream} {s : Settings} {r : Request}
    {base : Location} {ps : List Predicate} (hready : Output.Ready fs r.output base)
    (hpreds : predicates search fs stdin r = .ok ps) (hdebug : r.debug = false) :
    ((fs.set (base ++ [OutputFile.builtinsDir]) .directory).replay
        ((generate s.options ps).map (Output.request r.output))).1 =
      (runBy search fs stdin s r).files := by
  rw [Output.replay_map_request, (run_of_write hpreds hdebug).2.1, hready.write_eq]

/-- If no name is too long, every file is asked for. -/
theorem writes_of_fits {fs : FileSystem} {stdin : Stream} {s : Settings} {r : Request}
    {base : Location} {ps : List Predicate} (hready : Output.Ready fs r.output base)
    (hpreds : predicates search fs stdin r = .ok ps) (hdebug : r.debug = false)
    (hlen : ∀ p ∈ ps, p.name.length ≤ 252) :
    (runBy search fs stdin s r).writes = (generate s.options ps).map (Output.request r.output) := by
  have hnames := (predicates_eq_ok_iff.1 hpreds).2.isName
  have hfits : ∀ f ∈ generate s.options ps, Output.Fits f :=
    Output.fits_of_mem fun p hp => ⟨hnames p hp, hlen p hp⟩
  obtain ⟨after, hwrite, -⟩ := Output.writeFiles_of_fits hready hready.holds_nil hfits
  rw [writes_eq hready hpreds hdebug, Output.requests_of_ok hwrite]

/-- **Preview**: with a directory that passes its check, a run that prints fails exactly when the
run that writes fails before it asks for any write, with the same error.  Otherwise it prints, one
block each and in order, the writes of the other run, which stops at one that fails; carried out
after the directory for predicates has been made, they lead to the same file system.  If no name is
too long the other run asks for all of them. -/
theorem preview_agrees (search : Search) {fs : FileSystem} (htree : fs.tree.IsWellFormed)
    (stdin : Stream) (s : Settings) (input : Bytes) {output : Bytes}
    (hcheck : Output.check fs output = .ok ()) :
    (∀ e, (runBy search fs stdin s ⟨input, output, true⟩).result = .error e ↔
      (runBy search fs stdin s ⟨input, output, false⟩).result = .error e ∧ ∀ w, e ≠ .write w) ∧
    (∀ e, (runBy search fs stdin s ⟨input, output, true⟩).result = .error e →
      (runBy search fs stdin s ⟨input, output, true⟩).stdout = [] ∧
        (runBy search fs stdin s ⟨input, output, false⟩).files = fs ∧
        (runBy search fs stdin s ⟨input, output, false⟩).writes = []) ∧
    ((runBy search fs stdin s ⟨input, output, true⟩).result = .ok () →
      ∃ ps pairs mid, Reads search fs stdin input ps ∧
        pairs = (generate s.options ps).map (Output.request output) ∧
        (runBy search fs stdin s ⟨input, output, true⟩).stdout = pairs.flatMap shown ∧
        (runBy search fs stdin s ⟨input, output, false⟩).writes <+: pairs ∧
        ((∀ p ∈ ps, p.name.length ≤ 252) →
          (runBy search fs stdin s ⟨input, output, false⟩).writes = pairs) ∧
        fs.makeDirectories (Path.join output OutputFile.builtinsDir) = (mid, .ok ()) ∧
        mid.replay (runBy search fs stdin s ⟨input, output, false⟩).writes = mid.replay pairs ∧
        (mid.replay pairs).1 = (runBy search fs stdin s ⟨input, output, false⟩).files) := by
  obtain ⟨base, hready⟩ := Output.exists_ready_of_check htree hcheck
  have hsame := predicates_debug_eq search hcheck stdin input
  cases hpreds : predicates search fs stdin ⟨input, output, false⟩ with
  | error e =>
      have hshown := run_of_predicates_error (s := s) (hsame.trans hpreds)
      have hwritten := run_of_predicates_error (s := s) hpreds
      have hbefore : ∀ w, e ≠ .write w := by
        rintro w rfl
        exact predicates_ne_write w hpreds
      refine ⟨fun e' => ?_, fun _ _ => ⟨hshown.stdout, hwritten.files, hwritten.writes⟩,
        fun hok => ?_⟩
      · rw [hshown.result, hwritten.result]
        constructor
        · intro heq
          obtain rfl := Except.error.inj heq
          exact ⟨rfl, hbefore⟩
        · intro heq
          exact heq.1
      · rw [hshown.result] at hok
        contradiction
  | ok ps =>
      obtain ⟨hshown, -, hstdout⟩ := run_of_debug (s := s) (hsame.trans hpreds) rfl
      have hreads := (predicates_eq_ok_iff.1 hpreds).2
      have hblocks : (generate s.options ps).flatMap (block output) =
          ((generate s.options ps).map (Output.request output)).flatMap shown := by
        rw [List.flatMap_map]
        rfl
      have hprefix : (runBy search fs stdin s ⟨input, output, false⟩).writes <+:
          (generate s.options ps).map (Output.request output) := by
        rw [writes_eq hready hpreds rfl]
        exact Output.requests_prefix _ _ _
      refine ⟨fun e => ?_, fun e he => ?_, fun _ => ?_⟩
      · -- the run that writes can only fail in writing
        rw [hshown, (run_of_write hpreds rfl).1]
        cases (Output.write fs output (generate s.options ps)).2 with
        | ok u => simp [Except.mapError]
        | error w =>
            constructor
            · intro h
              contradiction
            · intro h
              exact absurd (Except.error.inj h.1).symm (h.2 w)
      · rw [hshown] at he
        contradiction
      · have hreplay := Output.replay_requests output
          (fs.set (base ++ [OutputFile.builtinsDir]) .directory) (generate s.options ps)
        rw [← writes_eq (r := ⟨input, output, false⟩) hready hpreds rfl] at hreplay
        exact ⟨ps, _, _, hreads, rfl, hstdout.trans hblocks, hprefix,
          writes_of_fits hready hpreds rfl, hready.makeDirectories, hreplay,
          replay_files_eq hready hpreds rfl⟩

/-- One declaration on standard input and an empty `out`: the run that prints shows the four files
that the run that writes asks for. -/
theorem int_eq_preview :
    Output.emptyOut.tree.IsWellFormed ∧ Output.check Output.emptyOut (utf8 "out") = .ok () ∧
      ∃ pairs, (run Output.emptyOut ⟨utf8 "predicate int_eq(int: a)", none⟩ Settings.standard
          ⟨utf8 "-", utf8 "out", true⟩).stdout = pairs.flatMap shown ∧
        (run Output.emptyOut ⟨utf8 "predicate int_eq(int: a)", none⟩ Settings.standard
          ⟨utf8 "-", utf8 "out", false⟩).writes = pairs ∧
        pairs.length = 4 := by
  have htree : Output.emptyOut.tree.IsWellFormed := by decide
  have hcheck : Output.check Output.emptyOut (utf8 "out") = .ok () := by rfl
  have hok : (run Output.emptyOut ⟨utf8 "predicate int_eq(int: a)", none⟩ Settings.standard
      ⟨utf8 "-", utf8 "out", true⟩).result = .ok () := by rfl
  obtain ⟨-, -, hprints⟩ := preview_agrees Glob.files? htree
    ⟨utf8 "predicate int_eq(int: a)", none⟩ Settings.standard (utf8 "-") hcheck
  obtain ⟨ps, pairs, mid, hreads, hpairs, hstdout, -, hall, -, -, -⟩ := hprints hok
  have hps : ps = [Output.unary "int_eq"] := by
    have hpreds : predicates Glob.files? Output.emptyOut ⟨utf8 "predicate int_eq(int: a)", none⟩
        ⟨utf8 "-", utf8 "out", false⟩ = .ok [Output.unary "int_eq"] := by rfl
    have hpreds' := predicates_eq_ok_iff.2 ⟨(predicates_eq_ok_iff.1 hpreds).1, hreads⟩
    exact Except.ok.inj (hpreds'.symm.trans hpreds)
  have hshort : ∀ p ∈ ps, p.name.length ≤ 252 := by
    rw [hps]
    decide
  refine ⟨htree, hcheck, pairs, hstdout, hall hshort, ?_⟩
  rw [hpairs, List.length_map, length_generate, hps]
  rfl

end Run

end ZincBind

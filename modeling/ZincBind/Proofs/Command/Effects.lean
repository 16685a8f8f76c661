import ZincBind.Proofs.Command.Stages

/-!
# ZincBind.Proofs.Command.Effects

What a run leaves in the file tree, however it searches for the files of a pattern.  A run that
succeeds in writing puts exactly the generated files below the output directory and changes nothing
else (`success_effects`).  A run that fails leaves the tree as it was, with one exception: a
predicate whose name is too long is only noticed when its file is written, after the files before it
(`failure_effects`).
-/

namespace ZincBind

namespace Run

/-! ## Failure -/

/-- A list with a name that is too long has a first one. -/
theorem exists_first_too_long {ps : List Predicate} (h : ∃ p ∈ ps, 252 < p.name.length) :
    ∃ front p back, ps = front ++ p :: back ∧ (∀ q ∈ front, q.name.length ≤ 252) ∧
      252 < p.name.length := by
  have hfind : (ps.find? fun p => 252 < p.name.length).isSome = true := by
    simpa [List.find?_isSome] using h
  obtain ⟨p, hp⟩ := Option.isSome_iff_exists.1 hfind
  obtain ⟨hlen, front, back, hps, hfront⟩ := List.find?_eq_some_iff_append.1 hp
  exact ⟨front, p, back, hps, by simpa using hfront, by simpa using hlen⟩

/-- A check, a source or a line that is turned down ends the run before delivery. -/
theorem exists_predicates_error {search : Search} {fs : FileSystem} {stdin : Stream} {r : Request}
    (h : (∃ e, checkOutput fs r = .error e) ∨
      (∃ e, Source.readBy search fs stdin r.input = .error e) ∨
      ∃ sources, Source.readBy search fs stdin r.input = .ok sources ∧
        ∃ source ∈ sources, ∃ e, DeclarationFile.parse source.text = .error e) :
    ∃ e, predicates search fs stdin r = .error e := by
  cases hpreds : predicates search fs stdin r with
  | error e => exact ⟨e, rfl⟩
  | ok ps =>
      exfalso
      obtain ⟨hcheck, sources, pss, hread, hparse, -⟩ := predicates_eq_ok_iff.1 hpreds
      obtain ⟨e, he⟩ | ⟨e, he⟩ | ⟨sources', hread', source, hsource, e, he⟩ := h
      · rw [hcheck] at he
        contradiction
      · rw [hread] at he
        contradiction
      · obtain rfl := Except.ok.inj (hread.symm.trans hread')
        obtain ⟨n, hn, rfl⟩ := List.mem_iff_getElem.1 hsource
        have hok := hparse.get hn (hparse.length_eq ▸ hn)
        simp only [List.get_eq_getElem] at hok
        rw [he] at hok
        contradiction

/-- **Failure**: a run that prints never touches the tree.  A run that writes leaves it alone, and
prints nothing, if the check of the directory, the reading or the parsing fails, and whether the
check fails, and how, does not depend on the input.  After that it fails exactly when the name of a
predicate is longer than 252 bytes, and then the directory holds exactly what is generated before
the first such predicate. -/
theorem failure_effects (search : Search) {fs : FileSystem} (htree : fs.tree.IsWellFormed)
    (stdin : Stream) (s : Settings) (r : Request) :
    (r.debug = true → (runBy search fs stdin s r).files = fs) ∧
      (r.debug = false →
        ((∃ e, checkOutput fs r = .error e) ∨
            (∃ e, Source.readBy search fs stdin r.input = .error e) ∨
            (∃ sources, Source.readBy search fs stdin r.input = .ok sources ∧
              ∃ source ∈ sources, ∃ e, DeclarationFile.parse source.text = .error e) →
          ∃ e, (runBy search fs stdin s r).FailsCleanly fs e) ∧
        (∀ e, checkOutput fs r = .error e → ∀ stdin' s' input',
          (runBy search fs stdin' s' { r with input := input' }).FailsCleanly fs e) ∧
        ∀ ps, checkOutput fs r = .ok () → Reads search fs stdin r.input ps →
          ((∃ e, (runBy search fs stdin s r).result = .error e) ↔ ∃ p ∈ ps, 252 < p.name.length) ∧
          ∀ front p back, ps = front ++ p :: back → (∀ q ∈ front, q.name.length ≤ 252) →
            252 < p.name.length →
            ∃ base, fs.resolve r.output = .ok base ∧
              Output.Holds fs base ((generate s.options ps).take (front.length + 3))
                (runBy search fs stdin s r).files) := by
  constructor
  · intro hdebug
    cases hpreds : predicates search fs stdin r with
    | error e => exact (run_of_predicates_error hpreds).files
    | ok ps => exact (run_of_debug hpreds hdebug).2.1
  · intro hdebug
    refine ⟨?_, ?_, ?_⟩
    · intro h
      obtain ⟨e, he⟩ := exists_predicates_error h
      exact ⟨e, run_of_predicates_error he⟩
    · intro e he stdin' s' input'
      have hcheck : checkOutput fs { r with input := input' } = .error e := he
      exact run_of_predicates_error (predicates_of_checkOutput_error hcheck)
    · intro ps hcheck hreads
      obtain ⟨base, hready⟩ :=
        Output.exists_ready_of_check htree ((checkOutput_eq_ok_iff hdebug).1 hcheck)
      have hpreds := predicates_eq_ok_iff.2 ⟨hcheck, hreads⟩
      refine ⟨⟨?_, ?_⟩, ?_⟩
      · intro herror
        obtain ⟨e, he⟩ := herror
        by_contra hshort
        have hlen : ∀ p ∈ ps, p.name.length ≤ 252 := by simpa using hshort
        rw [(run_of_fits hready hpreds hdebug hlen).1] at he
        contradiction
      · intro hlong
        obtain ⟨front, p, back, rfl, hfront, hp⟩ := exists_first_too_long hlong
        obtain ⟨e, he⟩ := (run_of_too_long hready hpreds hdebug hfront hp).1
        exact ⟨.write e, he⟩
      · intro front p back hps hfront hp
        subst hps
        exact ⟨base, hready.resolves, (run_of_too_long hready hpreds hdebug hfront hp).2⟩

/-- The predicate `a…a(int: a)` with a name of 253 bytes. -/
def longNamed : Predicate :=
  { Output.unary "a" with name := List.replicate 253 (byte 'a') }

theorem isDeclarable_longNamed : longNamed.IsDeclarable where
  name := by
    refine ⟨byte 'a', List.replicate 252 (byte 'a'), rfl, by decide, fun c hc => ?_⟩
    rw [List.eq_of_mem_replicate hc]
    decide
  args_ne_nil := List.cons_ne_nil _ _
  type_mem := by decide
  arg_name := by
    intro a ha
    rw [List.mem_singleton.1 ha]
    exact ⟨Grammar.isValid_iff.1 (by decide), by decide⟩

/-- Writing to an empty `out` what standard input declares. -/
def toOut : Request := ⟨utf8 "-", utf8 "out", false⟩

/-- Declared on standard input, this predicate makes the run fail after the files for the whole list
have been written. -/
theorem long_name_fails_after_modules :
    Output.emptyOut.tree.IsWellFormed ∧ checkOutput Output.emptyOut toOut = .ok () ∧
      (∃ e, (run Output.emptyOut ⟨longNamed.render, none⟩ Settings.standard toOut).result =
        .error e) ∧
      Output.Holds Output.emptyOut [utf8 "out"] (aggregate Options.standard [longNamed])
        (run Output.emptyOut ⟨longNamed.render, none⟩ Settings.standard toOut).files := by
  have htree : Output.emptyOut.tree.IsWellFormed := by decide
  have hcheck : checkOutput Output.emptyOut toOut = .ok () := by rfl
  have hparse : DeclarationFile.parse longNamed.render = .ok [longNamed] := by
    have hdeclarable : ∀ p ∈ [longNamed], p.IsDeclarable := by simpa using isDeclarable_longNamed
    have hlines := parse_joined_render hdeclarable
    rwa [List.map_singleton, Bytes.joined_singleton] at hlines
  have hreads : Reads Glob.files? Output.emptyOut ⟨longNamed.render, none⟩ toOut.input
      [longNamed] :=
    ⟨[⟨utf8 "<stdin>", longNamed.render⟩], [[longNamed]], by rfl,
      List.Forall₂.cons hparse List.Forall₂.nil, rfl⟩
  have hlong : 252 < longNamed.name.length := by
    rw [longNamed, List.length_replicate]
    decide
  obtain ⟨-, hwrite⟩ :=
    failure_effects Glob.files? htree ⟨longNamed.render, none⟩ Settings.standard toOut
  obtain ⟨hfails, hpartial⟩ := (hwrite rfl).2.2 [longNamed] hcheck hreads
  obtain ⟨base, hbase, hholds⟩ := hpartial [] longNamed [] rfl (by simp) hlong
  have hout : Output.emptyOut.resolve toOut.output = .ok [utf8 "out"] := by rfl
  obtain rfl := Except.ok.inj (hbase.symm.trans hout)
  exact ⟨htree, hcheck, hfails.2 ⟨longNamed, List.mem_singleton_self _, hlong⟩, hholds⟩

/-! ## Success -/

/-- **Success**: a run that succeeds in writing leaves below the directory that its output argument
leads to, however that is spelled, exactly the directory for predicates and the generated files, of
files with one path the last; the file of a predicate is called after it, and everything outside
the directory is as before. -/
theorem success_effects {search : Search} {fs : FileSystem} (htree : fs.tree.IsWellFormed)
    {stdin : Stream} {s : Settings} {r : Request} (hdebug : r.debug = false)
    (hok : (runBy search fs stdin s r).result = .ok ()) :
    ∃ base ps, fs.resolve r.output = .ok base ∧ Reads search fs stdin r.input ps ∧
      Output.Holds fs base (generate s.options ps) (runBy search fs stdin s r).files ∧
      ∀ p ∈ ps, (p.emit s.options).path = utf8 "builtins/" ++ p.name ++ utf8 ".rs" := by
  cases hpreds : predicates search fs stdin r with
  | error e =>
      rw [(run_of_predicates_error hpreds).result] at hok
      contradiction
  | ok ps =>
      obtain ⟨hcheck, hreads⟩ := predicates_eq_ok_iff.1 hpreds
      obtain ⟨base, hready⟩ :=
        Output.exists_ready_of_check htree ((checkOutput_eq_ok_iff hdebug).1 hcheck)
      have hlen : ∀ p ∈ ps, p.name.length ≤ 252 := by
        by_contra hlong
        obtain ⟨front, p, back, rfl, hfront, hp⟩ := exists_first_too_long (by simpa using hlong)
        obtain ⟨e, he⟩ := (run_of_too_long hready hpreds hdebug hfront hp).1
        rw [hok] at he
        contradiction
      exact ⟨base, ps, hready.resolves, hreads, (run_of_fits hready hpreds hdebug hlen).2,
        fun p hp => path_eq (hreads.isName p hp)⟩

/-- A working directory `w` with an empty directory and a file. -/
def workspace : FileSystem :=
  ⟨⟨[([utf8 "w"], .directory), ([utf8 "w", utf8 "out"], .directory),
    ([utf8 "w", utf8 "notes"], .file (utf8 "keep"))]⟩, [utf8 "w"]⟩

/-- The empty directory by a roundabout spelling, with a declaration on standard input. -/
def toSpelledOut : Request := ⟨utf8 "-", utf8 "../w/./out//", false⟩

/-- The roundabout spelling leads to `w/out`, which holds the generated files after the run, while
the file beside it is as before. -/
theorem spelled_output_success :
    workspace.tree.IsWellFormed ∧
      (run workspace ⟨utf8 "predicate int_eq(int: a)", none⟩ Settings.standard
        toSpelledOut).result = .ok () ∧
      ∃ ps, Reads Glob.files? workspace ⟨utf8 "predicate int_eq(int: a)", none⟩
          toSpelledOut.input ps ∧
        Output.Holds workspace [utf8 "w", utf8 "out"] (generate Options.standard ps)
          (run workspace ⟨utf8 "predicate int_eq(int: a)", none⟩ Settings.standard
            toSpelledOut).files := by
  have htree : workspace.tree.IsWellFormed := by decide
  have hok : (run workspace ⟨utf8 "predicate int_eq(int: a)", none⟩ Settings.standard
      toSpelledOut).result = .ok () := by rfl
  obtain ⟨base, ps, hbase, hreads, hholds, -⟩ := success_effects htree rfl hok
  have hout : workspace.resolve toSpelledOut.output = .ok [utf8 "w", utf8 "out"] := by rfl
  obtain rfl := Except.ok.inj (hbase.symm.trans hout)
  exact ⟨htree, hok, ps, hreads, hholds⟩

end Run

end ZincBind

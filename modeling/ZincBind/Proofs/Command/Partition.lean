import Mathlib.Tactic.Choose
import ZincBind.Proofs.Command.Stages
import ZincBind.Proofs.Declaration.Concatenation
import ZincBind.Proofs.Text.Ordering

/-!
# ZincBind.Proofs.Command.Partition

Declarations spread over files.  A search may find the files of a pattern in any order, because they
are read in the order of their paths (`readBy_of_finds`).  Nor does it matter which line stands in
which file: accepted sources have the predicates of their joined text
(`parseSources_eq_parse_joined`), and the first source that is rejected is where the joined text is
rejected (`FirstRejected.parse_joined`).  `partition_irrelevant` says what this means for a run.
-/

namespace ZincBind

/-! ## Searches -/

/-- The search finds each of these files once, in some order. -/
def Finds (search : Search) (fs : FileSystem) (pattern : Bytes) (files : List Bytes) : Prop :=
  ∃ found, search fs pattern = some found ∧ found.Perm files

namespace Source

/-- The texts of sources with line feeds between them. -/
def joinedText (sources : List Source) : Bytes :=
  Bytes.joined (utf8 "\n") (sources.map Source.text)

/-- A pattern is what is neither a dash nor the path of something. -/
structure IsPattern (fs : FileSystem) (input : Bytes) : Prop where
  ne_dash : input ≠ utf8 "-"
  missing : ∀ e, fs.stat input ≠ .ok e

theorem readBy_of_isPattern {search : Search} {fs : FileSystem} {pattern : Bytes}
    {found : List Bytes} (h : IsPattern fs pattern) (hfound : search fs pattern = some found)
    (stdin : Stream) : readBy search fs stdin pattern = ofMatches fs pattern found := by
  rw [readBy, if_neg h.ne_dash, hfound]
  cases hstat : fs.stat pattern with
  | error e => rfl
  | ok e => exact absurd hstat (h.missing e)

/-- Files are read one by one, each giving its text under its path. -/
theorem ofFiles_of_forall {fs : FileSystem} {names : List Bytes}
    (h : ∀ name ∈ names, ∃ text, fs.stat name = .ok (.file text)) :
    ∃ sources, ofFiles fs names = .ok sources ∧ sources.map Source.name = names ∧
      ∀ source ∈ sources, fs.stat source.name = .ok (.file source.text) := by
  induction names with
  | nil => exact ⟨[], rfl, rfl, by simp⟩
  | cons name rest ih =>
      obtain ⟨text, htext⟩ := h name List.mem_cons_self
      obtain ⟨sources, hread, hnames, hsources⟩ := ih fun n hn => h n (List.mem_cons_of_mem name hn)
      have hfile : ofFile fs name = .ok ⟨name, text⟩ := by
        rw [ofFile, FileSystem.readFile_eq_ok_iff.2 htext]
      refine ⟨⟨name, text⟩ :: sources, ?_, ?_, ?_⟩
      · rw [ofFiles, Traversal.mapM_cons_of_ok hfile, ← ofFiles, hread]
        rfl
      · rw [List.map_cons, hnames]
      · simpa using ⟨htext, hsources⟩

/-- **Order of discovery**: whatever the order in which files are found, the sources are the same,
in ascending order of their paths. -/
theorem readBy_of_finds {fs : FileSystem} {pattern : Bytes} {files : List Bytes}
    (hpattern : IsPattern fs pattern) (hne : files ≠ []) (hdistinct : files.Nodup)
    (hfiles : ∀ name ∈ files, ∃ text, fs.stat name = .ok (.file text)) :
    ∃ sources : List Source, (sources.map Source.name).Pairwise (· < ·) ∧
      (sources.map Source.name).Perm files ∧
      (∀ source ∈ sources, fs.stat source.name = .ok (.file source.text)) ∧
      ∀ search stdin, Finds search fs pattern files →
        readBy search fs stdin pattern = .ok sources := by
  have hsorted : ∀ name ∈ Bytes.sorted files, ∃ text, fs.stat name = .ok (.file text) :=
    fun name hname => hfiles name (Bytes.mem_sorted.1 hname)
  obtain ⟨sources, hread, hnames, hsources⟩ := ofFiles_of_forall hsorted
  refine ⟨sources, ?_, ?_, hsources, ?_⟩
  · rw [hnames]
    exact Bytes.pairwise_lt_sorted hdistinct
  · rw [hnames]
    exact Bytes.sorted_perm files
  · rintro search stdin ⟨found, hfound, hperm⟩
    have hsome : found.isEmpty = false := by
      rw [List.isEmpty_eq_false_iff]
      intro hnil
      exact hne (List.nil_perm.1 (hnil ▸ hperm))
    rw [readBy_of_isPattern hpattern hfound, ofMatches, hsome, Bytes.sorted_eq_of_perm hperm]
    exact hread

end Source

theorem RunError.message_rejected (name : Bytes) (e : LineError) :
    RunError.message (.rejected name e) =
      name ++ utf8 ": line " ++ Bytes.decimal e.line ++ utf8 " " ++ e.text.quoted ++ utf8 ": " ++
        e.cause.message := by
  have hline : utf8 ": line " = utf8 ": " ++ utf8 "line " := rfl
  simp [RunError.message, LineError.message, hline]

namespace Run

/-! ## Runs on sources -/

/-- The outcome is that of printing or writing these files. -/
def Delivers (o : Outcome) (fs : FileSystem) (r : Request) (files : List OutputFile) : Prop :=
  ∃ log, o = deliver fs r files log

/-- The source is the first to be rejected. -/
structure FirstRejected (sources before : List Source) (source : Source) (e : LineError) : Prop where
  splits : ∃ after, sources = before ++ source :: after
  accepted : ∀ earlier ∈ before, ∃ ps, DeclarationFile.parse earlier.text = .ok ps
  rejected : DeclarationFile.parse source.text = .error e

theorem exists_firstRejected {sources : List Source}
    (h : ∃ source ∈ sources, ∃ e, DeclarationFile.parse source.text = .error e) :
    ∃ before source e, FirstRejected sources before source e := by
  induction sources with
  | nil => simp at h
  | cons source rest ih =>
      cases hparse : DeclarationFile.parse source.text with
      | error e => exact ⟨[], source, e, ⟨rest, rfl⟩, by simp, hparse⟩
      | ok ps =>
          have hrest : ∃ source ∈ rest, ∃ e, DeclarationFile.parse source.text = .error e := by
            simpa [hparse] using h
          obtain ⟨before, first, e, ⟨after, rfl⟩, hbefore, hfirst⟩ := ih hrest
          refine ⟨source :: before, first, e, ⟨after, rfl⟩, ?_, hfirst⟩
          simpa using ⟨⟨ps, hparse⟩, hbefore⟩

/-- The first rejected source decides. -/
theorem FirstRejected.parseSources_eq {sources before : List Source} {source : Source}
    {e : LineError} (h : FirstRejected sources before source e) :
    parseSources sources = .error (.rejected source.name e) := by
  obtain ⟨⟨after, rfl⟩, hbefore, hsource⟩ := h
  induction before with
  | nil => rw [List.nil_append, parseSources, hsource]
  | cons earlier before ih =>
      obtain ⟨ps, hps⟩ := hbefore earlier List.mem_cons_self
      rw [List.cons_append, parseSources, hps]
      simp only [ih fun s hs => hbefore s (List.mem_cons_of_mem earlier hs)]
      rfl

/-- So it does for the joined text, where its line stands below those of the earlier sources. -/
theorem FirstRejected.parse_joined {sources before : List Source} {source : Source}
    {e : LineError} (h : FirstRejected sources before source e) :
    DeclarationFile.parse (Source.joinedText sources) =
      .error (e.below (DeclarationFile.lineCounts (before.map Source.text))) := by
  obtain ⟨⟨after, rfl⟩, hbefore, hsource⟩ := h
  have htexts : ∀ u ∈ before.map Source.text, ∃ ps, DeclarationFile.parse u = .ok ps := by
    simpa using hbefore
  rw [Source.joinedText, List.map_append, List.map_cons,
    DeclarationFile.parse_joined_of_error htexts hsource]

/-- Accepted sources have the predicates of their joined text. -/
theorem parseSources_eq_parse_joined {sources : List Source}
    (h : ∀ source ∈ sources, ∃ ps, DeclarationFile.parse source.text = .ok ps) :
    ∃ ps, parseSources sources = .ok ps ∧
      DeclarationFile.parse (Source.joinedText sources) = .ok ps := by
  choose! declared hdeclared using h
  have hparse : List.Forall₂ (fun source qs => DeclarationFile.parse source.text = .ok qs)
      sources (sources.map declared) := by
    rw [List.forall₂_map_right_iff, List.forall₂_same]
    exact hdeclared
  refine ⟨_, parseSources_eq_ok_iff.2 ⟨_, hparse, rfl⟩, ?_⟩
  exact DeclarationFile.parse_joined_of_ok (List.forall₂_map_left_iff.2 hparse)

theorem parseSources_singleton {source : Source} {ps : List Predicate}
    (h : DeclarationFile.parse source.text = .ok ps) : parseSources [source] = .ok ps := by
  rw [parseSources, h]
  simp [parseSources, Except.map]

/-- Once the directory has passed its check and the sources are there, it is up to these. -/
theorem predicates_of_read {search : Search} {fs : FileSystem} {stdin : Stream} {r : Request}
    {sources : List Source} (hcheck : checkOutput fs r = .ok ())
    (hread : Source.readBy search fs stdin r.input = .ok sources) :
    predicates search fs stdin r = parseSources sources := by
  rw [predicates, hcheck, hread]
  rfl

theorem delivers_of_read {search : Search} {fs : FileSystem} {stdin : Stream} {r : Request}
    {sources : List Source} {ps : List Predicate} (s : Settings)
    (hcheck : checkOutput fs r = .ok ())
    (hread : Source.readBy search fs stdin r.input = .ok sources)
    (h : parseSources sources = .ok ps) :
    Delivers (runBy search fs stdin s r) fs r (generate s.options ps) := by
  rw [runBy, predicates_of_read hcheck hread, h]
  exact ⟨_, rfl⟩

/-! ## Declarations spread over files -/

/-- **Partition**: how declarations are spread over files does not matter.  Let an input be a pattern,
and let the search for it find each of some files once, in whatever order.  If there are none, there
is no input.  Otherwise the sources are the texts of these files in strictly ascending order of their
paths, the same for all orders of discovery.

If all of them are accepted, a run delivers the files generated from their joined text, and so does
every run whose only source is that text.  If one is rejected, a run names the first in that order
and the line within it, and the joined text is rejected for the same cause at the line that this
line becomes below the lines of the earlier sources. -/
theorem partition_irrelevant {fs : FileSystem} {pattern : Bytes} {files : List Bytes}
    (hpattern : Source.IsPattern fs pattern) (hdistinct : files.Nodup)
    (hfiles : ∀ name ∈ files, ∃ text, fs.stat name = .ok (.file text)) :
    (files = [] → ∀ search stdin, Finds search fs pattern files →
      Source.readBy search fs stdin pattern = .error (.noMatch pattern)) ∧
    (files ≠ [] → ∃ sources : List Source,
      (sources.map Source.name).Pairwise (· < ·) ∧
      (sources.map Source.name).Perm files ∧
      (∀ source ∈ sources, fs.stat source.name = .ok (.file source.text)) ∧
      ∀ search stdin, Finds search fs pattern files →
        Source.readBy search fs stdin pattern = .ok sources ∧
        ∀ s r, r.input = pattern → checkOutput fs r = .ok () →
          ((∀ source ∈ sources, ∃ ps, DeclarationFile.parse source.text = .ok ps) →
            ∃ ps, DeclarationFile.parse (Source.joinedText sources) = .ok ps ∧
              Delivers (runBy search fs stdin s r) fs r (generate s.options ps) ∧
              ∀ search' stdin' input' name,
                Source.readBy search' fs stdin' input' = .ok [⟨name, Source.joinedText sources⟩] →
                Delivers (runBy search' fs stdin' s { r with input := input' }) fs r
                  (generate s.options ps)) ∧
          ((∃ source ∈ sources, ∃ e, DeclarationFile.parse source.text = .error e) →
            ∃ before source e, FirstRejected sources before source e) ∧
          ∀ before source e, FirstRejected sources before source e →
            (runBy search fs stdin s r).FailsCleanly fs (.rejected source.name e) ∧
            RunError.message (.rejected source.name e) =
              source.name ++ utf8 ": line " ++ Bytes.decimal e.line ++ utf8 " " ++
                e.text.quoted ++ utf8 ": " ++ e.cause.message ∧
            DeclarationFile.parse (Source.joinedText sources) =
              .error { e with
                line := DeclarationFile.lineCounts (before.map Source.text) + e.line }) := by
  refine ⟨?_, fun hne => ?_⟩
  · rintro rfl search stdin ⟨found, hfound, hperm⟩
    rw [Source.readBy_of_isPattern hpattern hfound, hperm.eq_nil]
    rfl
  · obtain ⟨sources, hascending, hnames, htexts, hread⟩ :=
      Source.readBy_of_finds hpattern hne hdistinct hfiles
    refine ⟨sources, hascending, hnames, htexts, fun search stdin hfinds => ?_⟩
    refine ⟨hread search stdin hfinds, ?_⟩
    rintro s r rfl hcheck
    refine ⟨?_, exists_firstRejected, ?_⟩
    · intro haccepted
      obtain ⟨ps, hsources, hjoined⟩ := parseSources_eq_parse_joined haccepted
      refine ⟨ps, hjoined, delivers_of_read s hcheck (hread search stdin hfinds) hsources, ?_⟩
      intro search' stdin' input' name hone
      exact @delivers_of_read _ _ _ { r with input := input' } _ _ s hcheck hone
        (parseSources_singleton hjoined)
    · intro before source e hfirst
      have herror := predicates_of_read hcheck (hread search stdin hfinds)
      rw [hfirst.parseSources_eq] at herror
      exact ⟨run_of_predicates_error herror,
        RunError.message_rejected source.name e, hfirst.parse_joined⟩

/-- A declaration. -/
def firstSource : Source := ⟨utf8 "a.fzn", utf8 "predicate int_eq(int: a)"⟩

/-- A comment and a line that is rejected. -/
def secondSource : Source := ⟨utf8 "b.fzn", utf8 "% none\npredicate int_ne(int)"⟩

/-- The two in files, not in the order of their paths, and a directory to write to. -/
def twoFiles : FileSystem :=
  ⟨⟨[([utf8 "out"], .directory), ([secondSource.name], .file secondSource.text),
    ([firstSource.name], .file firstSource.text)]⟩, []⟩

theorem files?_twoFiles :
    Glob.files? twoFiles (utf8 "*.fzn") = some [secondSource.name, firstSource.name] := by
  rfl

/-- The error of the argument without a name, on a given line. -/
def namelessArgument (line : Nat) : LineError :=
  ⟨line, utf8 "predicate int_ne(int)", ⟨.argument, utf8 "int"⟩⟩

/-- Whichever file is found first, a run stops at the second line of `b.fzn`, which is the third line
of the joined text. -/
theorem twoFiles_rejected :
    Source.IsPattern twoFiles (utf8 "*.fzn") ∧
      Finds Glob.files? twoFiles (utf8 "*.fzn") [utf8 "a.fzn", utf8 "b.fzn"] ∧
      (∀ search stdin, Finds search twoFiles (utf8 "*.fzn") [utf8 "a.fzn", utf8 "b.fzn"] →
        (runBy search twoFiles stdin Settings.standard
          ⟨utf8 "*.fzn", utf8 "out", false⟩).FailsCleanly twoFiles
            (.rejected (utf8 "b.fzn") (namelessArgument 2))) ∧
      (run twoFiles ⟨[], none⟩ Settings.standard ⟨utf8 "*.fzn", utf8 "out", false⟩).FailsCleanly
        twoFiles (.rejected (utf8 "b.fzn") (namelessArgument 2)) ∧
      DeclarationFile.parse (utf8 "predicate int_eq(int: a)\n% none\npredicate int_ne(int)") =
        .error (namelessArgument 3) := by
  have hpattern : Source.IsPattern twoFiles (utf8 "*.fzn") := by
    have hstat : twoFiles.stat (utf8 "*.fzn") = .error ⟨.stat, utf8 "*.fzn", .missing⟩ := rfl
    exact ⟨by decide, by simp [hstat]⟩
  have hfinds : Finds Glob.files? twoFiles (utf8 "*.fzn") [utf8 "a.fzn", utf8 "b.fzn"] :=
    ⟨_, files?_twoFiles, List.Perm.swap _ _ _⟩
  have hfiles : ∀ name ∈ [utf8 "a.fzn", utf8 "b.fzn"],
      ∃ text, twoFiles.stat name = .ok (.file text) := by
    simpa using ⟨⟨_, rfl⟩, ⟨_, rfl⟩⟩
  obtain ⟨-, hsome⟩ := partition_irrelevant hpattern (by decide) hfiles
  obtain ⟨sources, -, -, -, hsearch⟩ := hsome (by simp)
  obtain rfl : [firstSource, secondSource] = sources := by
    have hread := (hsearch Glob.files? ⟨[], none⟩ hfinds).1
    rw [Source.readBy_of_isPattern hpattern files?_twoFiles] at hread
    exact Except.ok.inj hread
  have hfirst : FirstRejected [firstSource, secondSource] [firstSource] secondSource
      (namelessArgument 2) :=
    ⟨⟨[], rfl⟩, by simpa using ⟨_, rfl⟩, rfl⟩
  have hruns := fun search stdin hfinds => ((hsearch search stdin hfinds).2 Settings.standard
    ⟨utf8 "*.fzn", utf8 "out", false⟩ rfl rfl).2.2 _ _ _ hfirst
  obtain ⟨hfails, -, hjoined⟩ := hruns Glob.files? ⟨[], none⟩ hfinds
  rw [runBy_files] at hfails
  exact ⟨hpattern, hfinds, fun search stdin hfinds => (hruns search stdin hfinds).1, hfails,
    hjoined⟩

end Run

end ZincBind

import ZincBind.Proofs.Emit.ImportBlocks
import ZincBind.Proofs.Emit.Lines

/-!
# ZincBind.Proofs.Settings.Validation

What accepted settings are.  The reader of module paths goes byte by byte; it accepts the texts
whose segments, cut at double colons, are words that may also begin with an underscore
(`isValid_iff`).  Each of the four settings has one rule, said here without the code that checks it
(`Breaks`); which names are log levels is left to any reader of them, of which `LogLevel.parse?` is
one.  Settings are accepted if no rule is broken (`validateBy_eq_ok_iff_not_breaks`), and otherwise
the first broken one in the order of the fields is reported (`validateBy_eq_error_iff`).

Module paths are closed under joining with double colons (`isValid_join`), so the imports of a
predicate's file are module paths if the crate is one (`isValid_of_mem_groups`).
-/

namespace ZincBind

open Bytes Grammar

namespace CratePath

/-! ## Segments -/

/-- Put a byte in front of the first of some texts. -/
def consFirst (b : UInt8) : List Bytes → List Bytes
  | [] => [[b]]
  | s :: ss => (b :: s) :: ss

/-- What stands between double colons, which are looked for from left to right and do not
overlap. -/
def segments : Bytes → List Bytes
  | [] => [[]]
  | [b] => [[b]]
  | b :: c :: bs =>
    if b = byte ':' ∧ c = byte ':' then [] :: segments bs else consFirst b (segments (c :: bs))

/-- A letter or an underscore, then letters, digits and underscores. -/
def IsSegment (s : Bytes) : Prop :=
  ∃ b bs, s = b :: bs ∧ (b ∈ letters ∨ b = byte '_') ∧ ∀ c ∈ bs, c ∈ wordBytes

theorem isSegment_iff {s : Bytes} : isSegment s = true ↔ IsSegment s := by
  cases s with
  | nil => simp [isSegment, IsSegment]
  | cons b bs =>
      simp only [isSegment, isStart, Bool.and_eq_true, Bool.or_eq_true, beq_iff_eq,
        List.all_eq_true, isLetter_iff, isWord_iff, IsSegment, List.cons.injEq]
      constructor
      · rintro ⟨hb, hbs⟩
        exact ⟨b, bs, ⟨rfl, rfl⟩, hb, hbs⟩
      · rintro ⟨_, _, ⟨rfl, rfl⟩, hb, hbs⟩
        exact ⟨hb, hbs⟩

/-- Whether texts go on from the inside of a segment: the first needs no beginning. -/
def goOn : List Bytes → Bool
  | [] => true
  | s :: ss => s.all Identifier.isWord && ss.all isSegment

theorem consFirst_ne_nil (b : UInt8) (ss : List Bytes) : consFirst b ss ≠ [] := by
  cases ss <;> simp [consFirst]

theorem segments_ne_nil (bs : Bytes) : segments bs ≠ [] := by
  fun_cases segments bs with
  | case1 => simp
  | case2 => simp
  | case3 => simp
  | case4 b c bs => exact consFirst_ne_nil b _

theorem goOn_consFirst (b : UInt8) {ss : List Bytes} (h : ss ≠ []) :
    goOn (consFirst b ss) = (Identifier.isWord b && goOn ss) := by
  obtain ⟨s, rest, rfl⟩ := List.exists_cons_of_ne_nil h
  simp [consFirst, goOn, Bool.and_assoc]

theorem all_isSegment_consFirst (b : UInt8) {ss : List Bytes} (h : ss ≠ []) :
    (consFirst b ss).all isSegment = (isStart b && goOn ss) := by
  obtain ⟨s, rest, rfl⟩ := List.exists_cons_of_ne_nil h
  simp [consFirst, goOn, isSegment, Bool.and_assoc]

/-! ## The reader, state by state -/

theorem not_isStart_colon : isStart (byte ':') = false := by decide

theorem not_isWord_colon : Identifier.isWord (byte ':') = false := by decide

theorem acceptsFrom_start_cons (b : UInt8) (bs : Bytes) :
    acceptsFrom .start (b :: bs) = (isStart b && acceptsFrom .word bs) := by
  cases hb : isStart b <;> simp [acceptsFrom, step, hb]

theorem acceptsFrom_word_cons {b : UInt8} (hb : b ≠ byte ':') (bs : Bytes) :
    acceptsFrom .word (b :: bs) = (Identifier.isWord b && acceptsFrom .word bs) := by
  cases hword : Identifier.isWord b <;> simp [acceptsFrom, step, hword, hb]

/-- Inside a segment a colon has to be followed by another one, and then a segment begins. -/
theorem acceptsFrom_word_colon (bs : Bytes) :
    acceptsFrom .word (byte ':' :: bs) = acceptsFrom .colon bs := by
  simp [acceptsFrom, step, not_isWord_colon]

theorem acceptsFrom_colon_cons (b : UInt8) (bs : Bytes) :
    acceptsFrom .colon (b :: bs) = (decide (b = byte ':') && acceptsFrom .start bs) := by
  by_cases hb : b = byte ':' <;> simp [acceptsFrom, step, hb]

/-- A byte that begins no double colon belongs to the first segment.  A single colon does, and no
state goes on behind it. -/
theorem acceptsFrom_cons_eq {b : UInt8} {bs : Bytes}
    (hsegments : segments (b :: bs) = consFirst b (segments bs))
    (hcolon : b = byte ':' → acceptsFrom .colon bs = false)
    (h : acceptsFrom .word bs = goOn (segments bs)) :
    acceptsFrom .start (b :: bs) = (segments (b :: bs)).all isSegment ∧
      acceptsFrom .word (b :: bs) = goOn (segments (b :: bs)) := by
  have hne := segments_ne_nil bs
  rw [hsegments, all_isSegment_consFirst b hne, goOn_consFirst b hne, acceptsFrom_start_cons, h]
  refine ⟨rfl, ?_⟩
  by_cases hb : b = byte ':'
  · rw [hb, acceptsFrom_word_colon, hcolon hb, not_isWord_colon, Bool.false_and]
  · rw [acceptsFrom_word_cons hb, h]

/-- **The reader**: before a segment it asks for segments, inside one for the rest of it and then
for segments. -/
theorem acceptsFrom_eq (bs : Bytes) :
    acceptsFrom .start bs = (segments bs).all isSegment ∧
      acceptsFrom .word bs = goOn (segments bs) := by
  fun_induction segments bs with
  | case1 => exact ⟨rfl, rfl⟩
  | case2 b => exact @acceptsFrom_cons_eq b [] rfl (fun _ => rfl) rfl
  | case3 b c bs hcolons ih =>
      obtain ⟨rfl, rfl⟩ := hcolons
      constructor
      · rw [acceptsFrom_start_cons, not_isStart_colon, List.all_cons, isSegment, Bool.false_and,
          Bool.false_and]
      · rw [acceptsFrom_word_colon, acceptsFrom_colon_cons, decide_eq_true rfl, Bool.true_and, ih.1]
        rfl
  | case4 b c bs hcolons ih =>
      have hsegments : segments (b :: c :: bs) = consFirst b (segments (c :: bs)) := by
        rw [segments, if_neg hcolons]
      rw [← hsegments]
      refine acceptsFrom_cons_eq hsegments (fun hb => ?_) ih.2
      have hc : c ≠ byte ':' := fun hc => hcolons ⟨hb, hc⟩
      simp [acceptsFrom_colon_cons, hc]

/-- **Module paths** are the texts whose segments are words that may begin with an underscore. -/
theorem isValid_iff {bs : Bytes} : isValid bs = true ↔ ∀ s ∈ segments bs, IsSegment s := by
  simp only [isValid, (acceptsFrom_eq bs).1, List.all_eq_true, isSegment_iff]

/-! ## Joining -/

/-- Behind a module path, a double colon asks for another one. -/
theorem acceptsFrom_append {state : State} {bs : Bytes} (h : acceptsFrom state bs = true)
    (rest : Bytes) : acceptsFrom state (bs ++ utf8 "::" ++ rest) = acceptsFrom .start rest := by
  induction bs generalizing state with
  | nil =>
      have hcolons : utf8 "::" = [byte ':', byte ':'] := rfl
      obtain rfl : state = .word := by simpa [acceptsFrom] using h
      rw [hcolons, List.nil_append, List.cons_append, acceptsFrom_word_colon, List.cons_append,
        acceptsFrom_colon_cons, decide_eq_true rfl, Bool.true_and, List.nil_append]
  | cons b bs ih =>
      rw [acceptsFrom] at h
      rw [List.cons_append, List.cons_append, acceptsFrom]
      cases hstep : step state b with
      | none => simp [hstep] at h
      | some next =>
          simp only [hstep] at h
          exact ih h

/-- Two module paths with a double colon between them are one. -/
theorem isValid_join {path rest : Bytes} (hpath : isValid path = true)
    (hrest : isValid rest = true) : isValid (path ++ utf8 "::" ++ rest) = true := by
  rw [isValid, acceptsFrom_append hpath]
  exact hrest

end CratePath

/-! ## The imports of accepted settings -/

namespace Imports

open CratePath

theorem isValid_of_mem_fixed {crate path : Bytes} (hcrate : CratePath.isValid crate = true)
    (h : path ∈ fixed crate) : CratePath.isValid path = true := by
  have hbelow : ∀ rest ∈ [utf8 "Fzn", utf8 "constraint::Constraint", utf8 "model::Model"],
      CratePath.isValid rest = true := by decide
  have hpaths : fixed crate =
      [utf8 "Fzn", utf8 "constraint::Constraint", utf8 "model::Model"].map
        (crate ++ utf8 "::" ++ ·) := by
    simp only [fixed, List.map_cons, List.map_nil, List.append_assoc]
    rfl
  rw [hpaths] at h
  obtain ⟨rest, hrest, rfl⟩ := List.mem_map.1 h
  exact isValid_join hcrate (hbelow rest hrest)

theorem isValid_of_mem_ofType {crate path : Bytes} (hcrate : CratePath.isValid crate = true)
    {t : ArgType} (ht : t ∈ ArgType.registry) (h : path ∈ ofType crate t) :
    CratePath.isValid path = true := by
  have hconverter : ∀ t ∈ ArgType.registry,
      CratePath.isValid (utf8 "parser::" ++ t.converter) = true := by decide
  have himport : ∀ t ∈ ArgType.registry,
      t.importPath ≠ [] → CratePath.isValid t.importPath = true := by decide
  obtain rfl | ⟨hne, rfl⟩ := mem_ofType.1 h
  · have hparser : utf8 "::parser::" = utf8 "::" ++ utf8 "parser::" := by decide
    rw [hparser, ← List.append_assoc, List.append_assoc]
    exact isValid_join hcrate (hconverter t ht)
  · exact isValid_join hcrate (himport t ht hne)

/-- **Imports**: with a crate that is a module path and types of the registry, every import is a
module path. -/
theorem isValid_of_mem_groups {crate : Bytes} (hcrate : CratePath.isValid crate = true)
    {p : Predicate} (hp : ∀ a ∈ p.args, a.type ∈ ArgType.registry) {path : Bytes}
    (h : path ∈ (groups crate p).flatten) : CratePath.isValid path = true := by
  obtain ⟨-, rfl⟩ | rfl | hlocal := mem_flatten_groups.1 h
  · decide
  · decide
  · obtain hfixed | ⟨a, ha, htype⟩ := mem_localPaths.1 hlocal
    · exact isValid_of_mem_fixed hcrate hfixed
    · exact isValid_of_mem_ofType hcrate (hp a ha) htype

end Imports

/-! ## The rules of settings -/

/-- The rules that settings break, each with the fault that reports it. -/
inductive Settings.Breaks (s : Settings) (readLevel : Bytes → Option LogLevel) : SettingFault → Prop
  /-- The crate has a segment that is none. -/
  | crate (h : ¬ ∀ segment ∈ CratePath.segments s.options.crate, CratePath.IsSegment segment) :
      Breaks s readLevel (.crate s.options.crate)
  /-- The attribute does not begin or does not end as one. -/
  | derive (h : ¬ utf8 "#[" <+: s.options.derive ∨ ¬ utf8 "]" <:+ s.options.derive) :
      Breaks s readLevel (.derive s.options.derive)
  /-- The model parameter is made of blank characters. -/
  | modelParam (text : String) (hblank : ∀ c ∈ text.toList, Glyph.isBlankChar c = true)
      (h : s.options.modelParam = utf8 text) : Breaks s readLevel .modelParam
  /-- The log level is no name of one. -/
  | logLevel (h : readLevel s.logLevel = none) : Breaks s readLevel (.logLevel s.logLevel)

/-- The order of the fields. -/
def SettingFault.position : SettingFault → Nat
  | .crate _ => 0
  | .derive _ => 1
  | .modelParam => 2
  | .logLevel _ => 3

/-- The words of a fault tell which setting it is about. -/
theorem SettingFault.position_eq_of_message_eq {f g : SettingFault} (h : f.message = g.message) :
    f.position = g.position := by
  have hhead : ∀ f : SettingFault, f.message.head? =
      [byte 'c', byte 'd', byte 'm', byte 'u'][f.position]? := by
    rintro (_ | _ | _ | _) <;> rfl
  have hnodup : [byte 'c', byte 'd', byte 'm', byte 'u'].Nodup := by decide
  have hlt : f.position < 4 := by cases f <;> simp [SettingFault.position]
  exact (List.getElem?_inj hlt hnodup).1 (by rw [← hhead f, ← hhead g, h])

namespace Settings

variable {s : Settings} {readLevel : Bytes → Option LogLevel}

theorem breaks_crate_iff {value : Bytes} :
    s.Breaks readLevel (.crate value) ↔
      value = s.options.crate ∧ CratePath.isValid s.options.crate = false := by
  rw [← Bool.not_eq_true, CratePath.isValid_iff]
  constructor
  · rintro ⟨h⟩
    exact ⟨rfl, h⟩
  · rintro ⟨rfl, h⟩
    exact .crate h

theorem breaks_derive_iff {value : Bytes} :
    s.Breaks readLevel (.derive value) ↔
      value = s.options.derive ∧ isAttribute s.options.derive = false := by
  have hattribute : isAttribute s.options.derive = false ↔
      ¬ utf8 "#[" <+: s.options.derive ∨ ¬ utf8 "]" <:+ s.options.derive := by
    rw [← List.isPrefixOf_iff_prefix, ← List.isSuffixOf_iff_suffix, ← not_and_or,
      ← Bool.and_eq_true, Bool.not_eq_true]
    rfl
  rw [hattribute]
  constructor
  · rintro ⟨⟩
    exact ⟨rfl, ‹_›⟩
  · rintro ⟨rfl, h⟩
    exact .derive h

theorem breaks_modelParam_iff :
    s.Breaks readLevel .modelParam ↔ s.options.modelParam.isBlank = true := by
  rw [Bytes.isBlank_iff]
  constructor
  · rintro ⟨⟩
    exact ⟨_, ‹_›, ‹_›⟩
  · rintro ⟨text, hblank, h⟩
    exact .modelParam text hblank h

theorem breaks_logLevel_iff {value : Bytes} :
    s.Breaks readLevel (.logLevel value) ↔
      value = s.logLevel ∧ (readLevel s.logLevel).isNone = true := by
  rw [Option.isNone_iff_eq_none]
  constructor
  · rintro ⟨⟩
    exact ⟨rfl, ‹_›⟩
  · rintro ⟨rfl, h⟩
    exact .logLevel h

/-- A setting breaks its rule in one way. -/
theorem Breaks.eq_of_position_eq {f g : SettingFault} (hf : s.Breaks readLevel f)
    (hg : s.Breaks readLevel g) (h : f.position = g.position) : f = g := by
  have hfault : ∀ {f : SettingFault}, s.Breaks readLevel f →
      [.crate s.options.crate, .derive s.options.derive, .modelParam,
        .logLevel s.logLevel][f.position]? = some f := by
    intro f hf
    cases hf <;> rfl
  rw [← Option.some.injEq, ← hfault hf, ← hfault hg, h]

/-- **The check**, rule by rule: it accepts and no rule is broken, or it reports a broken rule with
none before it. -/
theorem validateBy_cases (s : Settings) (readLevel : Bytes → Option LogLevel) :
    (s.validateBy readLevel = .ok () ∧ ∀ f, ¬ s.Breaks readLevel f) ∨
      ∃ f, s.validateBy readLevel = .error f ∧ s.Breaks readLevel f ∧
        ∀ g, s.Breaks readLevel g → f.position ≤ g.position := by
  rw [validateBy]
  -- where a rule is reported, the conditions of those before it have been met
  split_ifs with hcrate hderive hmodel hlevel
  · exact Or.inr ⟨_, rfl, breaks_crate_iff.2 ⟨rfl, by simpa using hcrate⟩, fun g _ => Nat.zero_le _⟩
  · refine Or.inr ⟨_, rfl, breaks_derive_iff.2 ⟨rfl, by simpa using hderive⟩, ?_⟩
    rintro (_ | _ | _ | _) hg <;> simp_all [SettingFault.position, breaks_crate_iff]
  · refine Or.inr ⟨_, rfl, breaks_modelParam_iff.2 hmodel, ?_⟩
    rintro (_ | _ | _ | _) hg <;>
      simp_all [SettingFault.position, breaks_crate_iff, breaks_derive_iff]
  · refine Or.inr ⟨_, rfl, breaks_logLevel_iff.2 ⟨rfl, hlevel⟩, ?_⟩
    rintro (_ | _ | _ | _) hg <;>
      simp_all [SettingFault.position, breaks_crate_iff, breaks_derive_iff, breaks_modelParam_iff]
  · refine Or.inl ⟨rfl, ?_⟩
    rintro (_ | _ | _ | _) hg <;>
      simp_all [breaks_crate_iff, breaks_derive_iff, breaks_modelParam_iff, breaks_logLevel_iff]

/-- Settings are accepted exactly if they break no rule. -/
theorem validateBy_eq_ok_iff_not_breaks :
    s.validateBy readLevel = .ok () ↔ ∀ f, ¬ s.Breaks readLevel f := by
  obtain ⟨hok, hnone⟩ | ⟨f, herror, hf, -⟩ := s.validateBy_cases readLevel
  · exact iff_of_true hok hnone
  · rw [herror]
    exact iff_of_false (fun h => by cases h) fun hnone => hnone f hf

/-- **The first fault** is what is reported. -/
theorem validateBy_eq_error_iff {f : SettingFault} :
    s.validateBy readLevel = .error f ↔
      s.Breaks readLevel f ∧ ∀ g, s.Breaks readLevel g → f.position ≤ g.position := by
  obtain ⟨hok, hnone⟩ | ⟨first, herror, hfirst, hleast⟩ := s.validateBy_cases readLevel
  · rw [hok]
    exact iff_of_false (fun h => by cases h) fun h => hnone f h.1
  · rw [herror, Except.error.injEq]
    constructor
    · rintro rfl
      exact ⟨hfirst, hleast⟩
    · rintro ⟨hf, hle⟩
      exact hfirst.eq_of_position_eq hf (Nat.le_antisymm (hleast f hf) (hle first hfirst))

/-- **Accepted settings**: a crate is one if what stands between its double colons are segments.
Whatever reads the names of log levels, settings are accepted exactly if they break no rule, and
otherwise the error is the first broken one, which its words tell from the others.  With accepted
settings every path that the file of a predicate imports passes the check of the crate. -/
theorem crate_check_and_imports (readLevel : Bytes → Option LogLevel) :
    (∀ bs, CratePath.isValid bs = true ↔
      ∀ segment ∈ CratePath.segments bs, CratePath.IsSegment segment) ∧
    (∀ s : Settings, (s.validateBy readLevel = .ok () ↔ ∀ f, ¬ s.Breaks readLevel f) ∧
      ∀ f, s.validateBy readLevel = .error f ↔
        s.Breaks readLevel f ∧ ∀ g, s.Breaks readLevel g → f.position ≤ g.position) ∧
    (∀ f g : SettingFault, f.message = g.message → f.position = g.position) ∧
    ∀ s : Settings, s.validateBy readLevel = .ok () → ∀ line p, Predicate.parse line = .ok p →
      ∀ group ∈ Imports.groups s.options.crate p, ∀ path ∈ group,
        CratePath.isValid path = true := by
  refine ⟨fun _ => CratePath.isValid_iff,
    fun _ => ⟨validateBy_eq_ok_iff_not_breaks, fun _ => validateBy_eq_error_iff⟩,
    fun _ _ => SettingFault.position_eq_of_message_eq, ?_⟩
  intro s hvalid line p hparse group hgroup path hpath
  have hcrate := (validateBy_eq_ok_iff.1 hvalid).1
  have htypes := (isDeclarable_of_parse hparse).type_mem
  exact Imports.isValid_of_mem_groups hcrate htypes (List.mem_flatten.2 ⟨group, hgroup, hpath⟩)

/-- Settings that break two rules: the attribute has no number sign, and the model parameter is a
blank. -/
def twoFaults : Settings := ⟨⟨utf8 "a::b", utf8 "[derive]", utf8 " "⟩, utf8 "info"⟩

/-- Settings whose crate has two segments. -/
def nested : Settings :=
  { standard with options := { Options.standard with crate := utf8 "a::_b" } }

/-- Three colons are a double colon and a segment that begins with a colon.  Of two faults the
attribute is reported, and a converter is imported from the accepted crate. -/
theorem nested_imports :
    CratePath.segments (utf8 "a:::b") = [utf8 "a", utf8 ":b"] ∧
      CratePath.isValid (utf8 "a:::b") = false ∧
      twoFaults.validate = .error (.derive (utf8 "[derive]")) ∧
      twoFaults.Breaks LogLevel.parse? .modelParam ∧
      (SettingFault.modelParam.message ≠ (SettingFault.derive (utf8 "[derive]")).message) ∧
      nested.validate = .ok () ∧
      Predicate.parse (utf8 "predicate p(array [int] of var int: xs, bool: b)") =
        .ok Imports.mixedTypes ∧
      CratePath.isValid (utf8 "a::_b::parser::bool_from_expr") = true := by
  obtain ⟨hpath, hcheck, hwords, himports⟩ := crate_check_and_imports LogLevel.parse?
  have hsegments : CratePath.segments (utf8 "a:::b") = [utf8 "a", utf8 ":b"] := by decide
  have hmodel : twoFaults.Breaks LogLevel.parse? .modelParam := by
    refine .modelParam " " (fun c hc => ?_) rfl
    obtain rfl : c = ' ' := List.mem_singleton.1 hc
    decide
  have hderive : twoFaults.Breaks LogLevel.parse? (.derive (utf8 "[derive]")) := .derive (by decide)
  have hvalid : nested.validate = .ok () := by decide
  have hparse : Predicate.parse (utf8 "predicate p(array [int] of var int: xs, bool: b)") =
      .ok Imports.mixedTypes := by rfl
  have hmem : utf8 "a::_b::parser::bool_from_expr" ∈
      (Imports.groups nested.options.crate Imports.mixedTypes).flatten :=
    Imports.mem_flatten_groups.2 (Or.inr (Or.inr (Imports.mem_localPaths.2 (Or.inr
      ⟨_, List.mem_cons_of_mem _ List.mem_cons_self, Imports.mem_ofType.2 (Or.inl rfl)⟩))))
  refine ⟨hsegments, ?_, ((hcheck _).2 _).2 ⟨hderive, ?_⟩, hmodel, fun h => ?_, hvalid, hparse, ?_⟩
  · rw [← Bool.not_eq_true, hpath, hsegments]
    simp [← CratePath.isSegment_iff]
    decide
  · rintro _ (h | _ | _ | _)
    · exact absurd ((hpath _).1 (by decide)) h
    all_goals decide
  · exact absurd (hwords _ _ h) (by decide)
  · obtain ⟨group, hgroup, hpath⟩ := List.mem_flatten.1 hmem
    exact himports nested hvalid _ _ hparse group hgroup _ hpath

end Settings

end ZincBind

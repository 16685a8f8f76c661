import ZincBind.Proofs.Declaration.File

/-!
# ZincBind.Proofs.Declaration.RoundTrip

Writing a predicate and reading it back.  Reading shortens names of two bytes, so not every
predicate survives; those that do are the ones reading can produce at all, and they are told by
looking at them (`Predicate.IsDeclarable`).

* `spells_render` — the written form is a line of the grammar;
* `isDeclarable_of_parse` — what is read is declarable;
* `parse_joined_render` — a file made of written predicates gives those predicates;
* `render_inverse_on_image` — the three descriptions agree, and a file survives being written out
  and read again.
-/

namespace ZincBind

open Bytes Grammar

/-- A predicate that has a line: its name and the names of its arguments are names, none of an
argument's two bytes long, there is an argument, and all types are in the registry. -/
structure Predicate.IsDeclarable (p : Predicate) : Prop where
  name : IsName p.name
  args_ne_nil : p.args ≠ []
  type_mem : ∀ a ∈ p.args, a.type ∈ ArgType.registry
  arg_name : ∀ a ∈ p.args, IsName a.name ∧ a.name.length ≠ 2

/-! ## Reading gives declarable predicates -/

/-- A shortened name is a name. -/
theorem isName_shorten {s : Bytes} (h : IsName s) : IsName (Identifier.shorten s) := by
  obtain ⟨b, bs, rfl, hb, hbs⟩ := h
  rw [Identifier.shorten]
  split
  · exact ⟨b, [], rfl, hb, by simp⟩
  · exact ⟨b, bs, rfl, hb, hbs⟩

/-- An accepted argument has a type of the registry and a shortened name. -/
theorem arg_of_parse {g : Bytes} {a : Arg} (h : Arg.parse g = .ok a) :
    a.type ∈ ArgType.registry ∧ IsName a.name ∧ a.name.length ≠ 2 := by
  obtain ⟨l, r, -, -, -, htype, hname, hshort⟩ := parseArg_eq_ok_iff.1 h
  rw [hshort]
  exact ⟨(ArgType.lookup_eq_some htype).1, isName_shorten hname,
    Identifier.length_shorten_ne_two r.trim⟩

theorem isDeclarable_of_parse {line : Bytes} {p : Predicate} (h : Predicate.parse line = .ok p) :
    p.IsDeclarable := by
  obtain ⟨t, gap, body, -, -, hname, hargs⟩ := parse_eq_ok_iff_reading.1 h
  have hflip : List.Forall₂ (fun a g => Arg.parse g = .ok a) p.args (pieces (byte ',') body) :=
    hargs.flip
  have hgood : ∀ a ∈ p.args, a.type ∈ ArgType.registry ∧ IsName a.name ∧ a.name.length ≠ 2 :=
    ((List.forall₂_and_left p.args (pieces (byte ',') body)).1
      (hflip.imp fun a g hg => And.intro (arg_of_parse hg) hg)).1
  refine ⟨hname, ?_, fun a ha => (hgood a ha).1, fun a ha => (hgood a ha).2⟩
  intro hnil
  rw [hnil, List.forall₂_nil_right_iff] at hargs
  exact pieces_ne_nil (byte ',') body hargs

/-- So are all predicates of an accepted file. -/
theorem isDeclarable_of_mem {text : Bytes} {ps : List Predicate}
    (h : DeclarationFile.parse text = .ok ps) : ∀ p ∈ ps, p.IsDeclarable := by
  intro p hp
  obtain ⟨line, hline⟩ := DeclarationFile.exists_line_of_mem h hp
  exact isDeclarable_of_parse hline

/-! ## Writing gives lines of the grammar -/

theorem isBlankRun_space : IsBlankRun (utf8 " ") := by
  refine ⟨" ", fun c hc => ?_, rfl⟩
  obtain rfl : c = ' ' := List.mem_singleton.1 hc
  decide

/-- A written argument spells that argument, also behind a space. -/
theorem spellsArg_render {a : Arg} (htype : a.type ∈ ArgType.registry) (hname : IsName a.name)
    (hlen : a.name.length ≠ 2) {l : Bytes} (hl : IsBlankRun l) : SpellsArg (l ++ a.render) a := by
  have hspell := SpellsArg.arg hl isBlankRun_nil isBlankRun_space isBlankRun_nil htype hname
  rw [if_neg hlen] at hspell
  have hcolon : utf8 ": " = utf8 ":" ++ utf8 " " := rfl
  have htext : l ++ a.type.token ++ [] ++ utf8 ":" ++ utf8 " " ++ a.name ++ [] = l ++ a.render := by
    rw [Arg.render, hcolon]
    simp only [List.append_assoc, List.append_nil]
  rwa [htext] at hspell

/-- **Written form**: a declarable predicate is spelled by its text. -/
theorem spells_render {p : Predicate} (h : p.IsDeclarable) : Spells p.render p := by
  obtain ⟨name, args⟩ := p
  cases args with
  | nil => exact absurd rfl h.args_ne_nil
  | cons a as =>
      have harg : ∀ x ∈ a :: as, ∀ {l : Bytes}, IsBlankRun l → SpellsArg (l ++ x.render) x :=
        fun x hx _ hl =>
          spellsArg_render (h.type_mem x hx) (h.arg_name x hx).1 (h.arg_name x hx).2 hl
      -- the space after a comma belongs to the argument behind it
      have hrest : List.Forall₂ SpellsArg ((as.map Arg.render).map (utf8 " " ++ ·)) as := by
        rw [List.map_map, List.forall₂_map_left_iff, List.forall₂_same]
        exact fun x hx => harg x (List.mem_cons_of_mem a hx) isBlankRun_space
      have hargs := List.Forall₂.cons (harg a List.mem_cons_self isBlankRun_nil) hrest
      have hspell := Spells.line (by decide : utf8 " " ≠ []) (by decide +kernel) h.name
        (List.cons_ne_nil _ _) hargs (by simp : ∀ b ∈ ([] : Bytes), b ∈ tailBytes)
      have hkey : utf8 "predicate " = utf8 "predicate" ++ utf8 " " := rfl
      have hsep : utf8 ", " = utf8 "," ++ utf8 " " := rfl
      rw [Predicate.render, hkey, hsep, List.map_cons, joined_append_sep]
      rwa [List.append_nil] at hspell

/-- A declarable predicate is read back from its text. -/
theorem parse_render {p : Predicate} (h : p.IsDeclarable) : Predicate.parse p.render = .ok p :=
  parse_of_spells (spells_render h)

/-! ## Files of written predicates -/

/-- No written argument holds a line feed. -/
theorem feed_not_mem_renderArg {a : Arg} (htype : a.type ∈ ArgType.registry)
    (hname : IsName a.name) : byte '\n' ∉ a.render := by
  have hmark : byte '\n' ∈ marks := by decide
  have hsep : byte '\n' ∉ utf8 ": " := by decide
  rw [Arg.render, List.mem_append, List.mem_append, not_or, not_or]
  exact ⟨⟨not_mem_token_of_mem_marks htype hmark, hsep⟩, hname.not_mem (by decide)⟩

/-- A written predicate is one line. -/
theorem feed_not_mem_render {p : Predicate} (h : p.IsDeclarable) : byte '\n' ∉ p.render := by
  have hkey : byte '\n' ∉ utf8 "predicate " := by decide
  have hopen : byte '\n' ∉ utf8 "(" := by decide
  have hclose : byte '\n' ∉ utf8 ")" := by decide
  have hargs : byte '\n' ∉ joined (utf8 ", ") (p.args.map Arg.render) := by
    intro hmem
    cases mem_of_mem_joined hmem with
    | inl hsep => exact absurd hsep (by decide)
    | inr hmem =>
        obtain ⟨_, hg, hmem⟩ := hmem
        obtain ⟨a, ha, rfl⟩ := List.mem_map.1 hg
        exact feed_not_mem_renderArg (h.type_mem a ha) (h.arg_name a ha).1 hmem
  simp only [Predicate.render, List.mem_append, not_or]
  exact ⟨⟨⟨⟨hkey, h.name.not_mem (by decide)⟩, hopen⟩, hargs⟩, hclose⟩

/-- A written predicate is neither a comment nor blank. -/
theorem isSkipped_render (p : Predicate) : DeclarationFile.isSkipped p.render = false := by
  have hhead : p.render.head? = some (byte 'p') := rfl
  have htext : p.render = utf8 "predicate " ++
      (p.name ++ utf8 "(" ++ joined (utf8 ", ") (p.args.map Arg.render) ++ utf8 ")") := by
    simp only [Predicate.render, List.append_assoc]
  have hblank : p.render.isBlank = false := by
    rw [Bytes.isBlank, htext, Glyph.decode_utf8_append, List.all_append]
    have hword : (("predicate ".toList.map Glyph.char).all Glyph.isBlank) = false := by decide
    rw [hword, Bool.false_and]
  rw [DeclarationFile.isSkipped, hhead, hblank]
  decide

/-- **Written files**: predicates written one a line are what the file is read as. -/
theorem parse_joined_render {ps : List Predicate} (h : ∀ p ∈ ps, p.IsDeclarable) :
    DeclarationFile.parse (joined (utf8 "\n") (ps.map Predicate.render)) = .ok ps := by
  cases ps with
  | nil => rfl
  | cons p ps =>
      have hfeed : ∀ line ∈ (p :: ps).map Predicate.render, byte '\n' ∉ line := by
        intro line hline
        obtain ⟨q, hq, rfl⟩ := List.mem_map.1 hline
        exact feed_not_mem_render (h q hq)
      have hlines : pieces (byte '\n') (joined (utf8 "\n") ((p :: ps).map Predicate.render)) =
          (p :: ps).map Predicate.render :=
        pieces_joined (by simp) hfeed
      have hdecl : DeclarationFile.declarations
          (joined (utf8 "\n") ((p :: ps).map Predicate.render)) =
            (p :: ps).map Predicate.render := by
        rw [DeclarationFile.declarations, hlines, List.filter_eq_self]
        intro line hline
        obtain ⟨q, -, rfl⟩ := List.mem_map.1 hline
        rw [isSkipped_render, Bool.not_false]
      rw [DeclarationFile.parse_eq_ok_iff, hdecl, List.forall₂_map_left_iff, List.forall₂_same]
      exact fun q hq => parse_render (h q hq)

/-- **Reading and writing are inverse on what reading gives**: a predicate has a line exactly when
it is declarable, exactly when its text is read as it; so the predicates of a file, written one a
line, are read again as they were. -/
theorem render_inverse_on_image :
    (∀ p : Predicate,
      ((∃ line, Predicate.parse line = .ok p) ↔ p.IsDeclarable) ∧
        (p.IsDeclarable ↔ Predicate.parse p.render = .ok p)) ∧
      ∀ text ps, DeclarationFile.parse text = .ok ps →
        DeclarationFile.parse (joined (utf8 "\n") (ps.map Predicate.render)) = .ok ps := by
  constructor
  · intro p
    refine ⟨⟨?_, fun h => ⟨p.render, parse_render h⟩⟩, parse_render, isDeclarable_of_parse⟩
    intro h
    obtain ⟨line, hline⟩ := h
    exact isDeclarable_of_parse hline
  · intro text ps h
    apply parse_joined_render
    intro p hp
    obtain ⟨line, hline⟩ := DeclarationFile.exists_line_of_mem h hp
    exact isDeclarable_of_parse hline

end ZincBind

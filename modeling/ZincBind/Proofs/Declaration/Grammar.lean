import ZincBind.Proofs.Declaration.Shape
import ZincBind.Proofs.Text.Blanks
import ZincBind.Proofs.Traversal

/-!
# ZincBind.Proofs.Declaration.Grammar

The grammar of declaration lines as two rules, one for an argument and one for a line, and the
theorem that the reader accepts exactly what they derive (`parse_eq_ok_iff_spells`).

The work is in the arguments.  An argument is trimmed on both sides of its colon by the reader,
while the rule spells out four runs of blanks; `spellsArg_iff` goes from one to the other.  Above
it stand only separators: no rule lets a comma, a colon or a line feed into a blank, a type or a
name, so cutting at commas finds the arguments the rule joined.
-/

namespace ZincBind

namespace Grammar

open Bytes Traversal

/-! ## The rules -/

/-- A text that spells an argument: a type of the registry, a colon and the name, with blanks
around the type and around the name.  A name of two bytes stands for its first. -/
inductive SpellsArg : Bytes → Arg → Prop
  | arg {l m r name s : Bytes} {type : ArgType} (hl : IsBlankRun l) (hm : IsBlankRun m)
      (hr : IsBlankRun r) (hs : IsBlankRun s) (htype : type ∈ ArgType.registry)
      (hname : IsName name) :
      SpellsArg (l ++ type.token ++ m ++ utf8 ":" ++ r ++ name ++ s)
        ⟨type, if name.length = 2 then name.take 1 else name⟩

/-- A line that spells a predicate: keyword, gap, name, at least one argument in parentheses with
commas between them, and a blank end. -/
inductive Spells : Bytes → Predicate → Prop
  | line {gap name tail : Bytes} {gs : List Bytes} {args : List Arg} (hgap : gap ≠ [])
      (hsub : ∀ b ∈ gap, b ∈ gapBytes) (hname : IsName name) (hgs : gs ≠ [])
      (hargs : List.Forall₂ SpellsArg gs args) (htail : ∀ b ∈ tail, b ∈ tailBytes) :
      Spells (utf8 "predicate" ++ gap ++ name ++ utf8 "(" ++ joined (utf8 ",") gs ++ utf8 ")" ++
        tail) ⟨name, args⟩

/-! ## Separators stay outside the words -/

/-- The bytes at which a body is cut, or which it may not hold. -/
def marks : Bytes := utf8 ",:\n"

theorem IsName.ne_nil {s : Bytes} (h : IsName s) : s ≠ [] := by
  obtain ⟨b, bs, rfl, -, -⟩ := h
  simp

theorem IsName.mem_wordBytes {s : Bytes} (h : IsName s) {b : UInt8} (hb : b ∈ s) :
    b ∈ wordBytes := by
  obtain ⟨c, cs, rfl, hc, hcs⟩ := h
  rcases List.mem_cons.1 hb with rfl | hb
  · rw [← isWord_iff, Identifier.isWord, (isLetter_iff b).2 hc]
    rfl
  · exact hcs b hb

/-- Bytes of words are visible ASCII. -/
theorem visible_of_mem_wordBytes {b : UInt8} (hb : b ∈ wordBytes) :
    32 < b.toNat ∧ b.toNat < 128 :=
  forall_mem_of_all (p := fun b => 32 < b.toNat ∧ b.toNat < 128) (by decide) b hb

theorem IsName.isSolid {s : Bytes} (h : IsName s) : IsSolid s where
  ascii _ hb := (visible_of_mem_wordBytes (h.mem_wordBytes hb)).2
  first _ hb := (visible_of_mem_wordBytes (h.mem_wordBytes (List.mem_of_mem_head? hb))).1
  last _ hb := (visible_of_mem_wordBytes (h.mem_wordBytes (List.mem_of_getLast? hb))).1

theorem IsName.not_mem {s : Bytes} (h : IsName s) {b : UInt8}
    (hb : Identifier.isWord b = false) : b ∉ s := by
  intro hmem
  rw [(isWord_iff b).2 (h.mem_wordBytes hmem)] at hb
  contradiction

/-- Every type of the registry is spelled in visible ASCII with spaces inside only. -/
theorem isSolid_token {t : ArgType} (ht : t ∈ ArgType.registry) : IsSolid t.token := by
  have hascii : ∀ t ∈ ArgType.registry, ∀ b ∈ t.token, b.toNat < 128 := by decide +kernel
  have hfirst : ∀ t ∈ ArgType.registry, ∀ b ∈ t.token.head?, 32 < b.toNat := by decide +kernel
  have hlast : ∀ t ∈ ArgType.registry, ∀ b ∈ t.token.getLast?, 32 < b.toNat := by
    decide +kernel
  exact ⟨hascii t ht, hfirst t ht, hlast t ht⟩

theorem not_mem_token_of_mem_marks {t : ArgType} (ht : t ∈ ArgType.registry) {b : UInt8}
    (hb : b ∈ marks) : b ∉ t.token := by
  have h : ∀ t ∈ ArgType.registry, ∀ b ∈ marks, b ∉ t.token := by decide +kernel
  exact h t ht b hb

theorem isWord_of_mem_marks {b : UInt8} (hb : b ∈ marks) : Identifier.isWord b = false :=
  forall_mem_of_all (p := fun b => Identifier.isWord b = false) (by decide) b hb

theorem not_mem_blankRun_of_mem_marks {bs : Bytes} (h : IsBlankRun bs) {b : UInt8}
    (hb : b ∈ marks) : b ∉ bs := by
  have hmarks : ∀ b ∈ marks, b.toNat < 128 ∧ (b = byte '\n' ∨ 32 < b.toNat) :=
    forall_mem_of_all (by decide)
  exact h.not_mem (hmarks b hb).1 (hmarks b hb).2

/-- No separator stands in a type or a name with the blanks around it. -/
theorem not_mem_surround {l w r : Bytes} {b : UInt8} (hl : IsBlankRun l) (hw : b ∉ w)
    (hr : IsBlankRun r) (hb : b ∈ marks) : b ∉ l ++ w ++ r := by
  simp only [List.mem_append, not_or]
  exact ⟨⟨not_mem_blankRun_of_mem_marks hl hb, hw⟩, not_mem_blankRun_of_mem_marks hr hb⟩

/-! ## Arguments -/

theorem pieces_eq_pair_iff {sep : UInt8} {g l r : Bytes} :
    pieces sep g = [l, r] ↔ g = l ++ sep :: r ∧ sep ∉ l ∧ sep ∉ r := by
  rw [pieces_eq_iff]
  simp [joined_cons_cons]

/-- Everything the argument reader can do: reject the whole text, or find one colon with
something on both sides, and then reject the type, reject the name, or accept. -/
theorem parseArg_cases (g : Bytes) :
    Arg.parse g = .error ⟨.argument, g⟩ ∨
      ∃ l r : Bytes, g = l ++ byte ':' :: r ∧ byte ':' ∉ l ∧ byte ':' ∉ r ∧
        ((ArgType.lookup l.trim = none ∧ Arg.parse g = .error ⟨.type, l.trim⟩) ∨
          ∃ type, ArgType.lookup l.trim = some type ∧
            ((¬ IsName r.trim ∧ Arg.parse g = .error ⟨.identifier, r.trim⟩) ∨
              (IsName r.trim ∧ Arg.parse g = .ok ⟨type, Identifier.shorten r.trim⟩))) := by
  unfold Arg.parse
  split
  · next l r hpair =>
    obtain ⟨hg, hl, hr⟩ := pieces_eq_pair_iff.1 hpair
    dsimp only
    by_cases hblank : l.trim = [] ∨ r.trim = []
    · rw [if_pos hblank]
      exact Or.inl rfl
    · rw [if_neg hblank]
      refine Or.inr ⟨l, r, hg, hl, hr, ?_⟩
      cases htype : ArgType.lookup l.trim with
      | none => exact Or.inl ⟨rfl, by simp only [ArgType.parse, htype]; rfl⟩
      | some type =>
          refine Or.inr ⟨type, rfl, ?_⟩
          by_cases hname : Identifier.isValid r.trim = true
          · refine Or.inr ⟨isValid_iff.1 hname, ?_⟩
            simp only [ArgType.parse, htype, Identifier.parse, if_pos hname]
            rfl
          · refine Or.inl ⟨fun h => hname (isValid_iff.2 h), ?_⟩
            simp only [ArgType.parse, htype, Identifier.parse, if_neg hname]
            rfl
  · exact Or.inl rfl

/-- An argument is accepted when it has one colon, a known type before it and a name behind it. -/
theorem parseArg_eq_ok_iff {g : Bytes} {a : Arg} :
    Arg.parse g = .ok a ↔
      ∃ l r : Bytes, g = l ++ byte ':' :: r ∧ byte ':' ∉ l ∧ byte ':' ∉ r ∧
        ArgType.lookup l.trim = some a.type ∧ IsName r.trim ∧
        a.name = Identifier.shorten r.trim := by
  constructor
  · intro h
    rcases parseArg_cases g with herr | ⟨l, r, hg, hl, hr, ⟨-, herr⟩ | ⟨type, htype, hcase⟩⟩
    · rw [h] at herr
      contradiction
    · rw [h] at herr
      contradiction
    · rcases hcase with ⟨-, herr⟩ | ⟨hname, hok⟩
      · rw [h] at herr
        contradiction
      · obtain rfl := Except.ok.inj (h.symm.trans hok)
        exact ⟨l, r, hg, hl, hr, htype, hname, rfl⟩
  · rintro ⟨l, r, hg, hl, hr, htype, hname, hshort⟩
    have hpair := pieces_eq_pair_iff.2 ⟨hg, hl, hr⟩
    have hfull : ¬ (l.trim = [] ∨ r.trim = []) := by
      rw [not_or]
      refine ⟨fun hnil => ?_, hname.ne_nil⟩
      have hnone : ArgType.lookup [] = none := rfl
      rw [hnil, hnone] at htype
      contradiction
    obtain ⟨type, name⟩ := a
    simp only at htype hshort
    simp only [Arg.parse, hpair, if_neg hfull, ArgType.parse, htype, Identifier.parse,
      if_pos (isValid_iff.2 hname), hshort]
    rfl

/-- Spellings are distinct: a type of the registry is found by its own. -/
theorem lookup_token {t : ArgType} (ht : t ∈ ArgType.registry) :
    ArgType.lookup t.token = some t := by
  simp only [ArgType.registry, List.mem_cons, List.not_mem_nil, or_false] at ht
  rcases ht with rfl | rfl | rfl | rfl | rfl | rfl | rfl | rfl <;> rfl

theorem append_colon (l token m r name s : Bytes) :
    l ++ token ++ m ++ utf8 ":" ++ r ++ name ++ s =
      (l ++ token ++ m) ++ byte ':' :: (r ++ name ++ s) := by
  have hcolon : utf8 ":" = [byte ':'] := rfl
  rw [hcolon]
  simp only [List.append_assoc, List.cons_append, List.nil_append]

/-- **Arguments**: on one line, the reader accepts exactly what the rule derives. -/
theorem spellsArg_iff {g : Bytes} {a : Arg} :
    SpellsArg g a ↔ byte '\n' ∉ g ∧ Arg.parse g = .ok a := by
  constructor
  · rintro ⟨hl, hm, hr, hs, htype, hname⟩
    next l m r name s type =>
    have hleft : ∀ b ∈ marks, b ∉ l ++ type.token ++ m := fun b hb =>
      not_mem_surround hl (not_mem_token_of_mem_marks htype hb) hm hb
    have hright : ∀ b ∈ marks, b ∉ r ++ name ++ s := fun b hb =>
      not_mem_surround hr (hname.not_mem (isWord_of_mem_marks hb)) hs hb
    have hsplit := append_colon l type.token m r name s
    constructor
    · rw [hsplit, List.mem_append, List.mem_cons, not_or, not_or]
      exact ⟨hleft _ (by decide), by decide, hright _ (by decide)⟩
    · refine parseArg_eq_ok_iff.2
        ⟨_, _, hsplit, hleft _ (by decide), hright _ (by decide), ?_, ?_, ?_⟩
      · rw [trim_surround hl (isSolid_token htype) hm, lookup_token htype]
      · rwa [trim_surround hr hname.isSolid hs]
      · rw [trim_surround hr hname.isSolid hs, Identifier.shorten]
  · rintro ⟨hfeed, h⟩
    obtain ⟨left, right, rfl, -, -, htype, hname, hshort⟩ := parseArg_eq_ok_iff.1 h
    rw [List.mem_append, List.mem_cons, not_or, not_or] at hfeed
    obtain ⟨l, m, hl, hm, hleft⟩ := exists_trim_of_line hfeed.1
    obtain ⟨r, s, hr, hs, hright⟩ := exists_trim_of_line hfeed.2.2
    obtain ⟨hreg, htok⟩ := ArgType.lookup_eq_some htype
    have hspell := SpellsArg.arg hl hm hr hs hreg hname
    rw [← Identifier.shorten, ← hshort, htok] at hspell
    rwa [append_colon, ← hleft, ← hright] at hspell

/-! ## Lines -/

/-- A line without a shape is rejected as it stands, less its blank end. -/
theorem parse_of_ofLine?_none {line : Bytes} (h : Shape.ofLine? (line.stripEnd isTail) = none) :
    Predicate.parse line = .error ⟨.predicate, line.stripEnd isTail⟩ := by
  simp only [Predicate.parse, h]

/-- Under a shape the name decides first, then the arguments from left to right. -/
theorem parse_of_ofLine?_some {line : Bytes} {shape : Shape}
    (h : Shape.ofLine? (line.stripEnd isTail) = some shape) :
    Predicate.parse line =
      if Identifier.isValid shape.name then
        ((pieces (byte ',') shape.body).mapM Arg.parse).map (Predicate.mk shape.name)
      else .error ⟨.identifier, shape.name⟩ := by
  simp only [Predicate.parse, h, Identifier.parse]
  split
  · cases (pieces (byte ',') shape.body).mapM Arg.parse <;> rfl
  · rfl

/-- Under the reading with the longest gap the name decides first, then the arguments. -/
theorem parse_of_greedyReading {line t gap name body : Bytes} (ht : Stripped line t)
    (h : GreedyReading t gap name body) :
    Predicate.parse line =
      if Identifier.isValid name then
        ((pieces (byte ',') body).mapM Arg.parse).map (Predicate.mk name)
      else .error ⟨.identifier, name⟩ := by
  rw [← stripped_iff.1 ht] at h
  have hshape : Shape.ofLine? (line.stripEnd isTail) = some ⟨name, body⟩ :=
    Shape.ofLine?_eq_some_iff.2 ⟨gap, h⟩
  exact parse_of_ofLine?_some hshape

/-- A line is accepted when it has a reading with a name in the right place and every piece
between the commas is an argument. -/
theorem parse_eq_ok_iff_reading {line : Bytes} {p : Predicate} :
    Predicate.parse line = .ok p ↔
      ∃ t gap body, Stripped line t ∧ Reading t gap p.name body ∧ IsName p.name ∧
        List.Forall₂ (fun g a => Arg.parse g = .ok a) (pieces (byte ',') body) p.args := by
  constructor
  · intro h
    cases hshape : Shape.ofLine? (line.stripEnd isTail) with
    | none =>
        rw [parse_of_ofLine?_none hshape] at h
        contradiction
    | some shape =>
        rw [parse_of_ofLine?_some hshape] at h
        by_cases hvalid : Identifier.isValid shape.name = true
        · rw [if_pos hvalid, map_eq_ok_iff] at h
          obtain ⟨args, hargs, rfl⟩ := h
          obtain ⟨gap, hgap⟩ := Shape.ofLine?_eq_some_iff.1 hshape
          exact ⟨line.stripEnd isTail, gap, shape.body, stripped_iff.2 rfl, hgap.toReading,
            isValid_iff.1 hvalid, mapM_eq_ok_iff.1 hargs⟩
        · rw [if_neg hvalid] at h
          contradiction
  · rintro ⟨t, gap, body, hstrip, hread, hname, hargs⟩
    -- a name begins with a letter, so the gap before it cannot grow
    have hdisj : ∀ b ∈ gapBytes, Identifier.isWord b = false := by decide +kernel
    have hgreedy := hread.greedy_iff.2 (Or.inr fun b hb hgap =>
      hname.not_mem (hdisj b hgap) (List.mem_of_mem_head? hb))
    rw [parse_of_greedyReading hstrip hgreedy, if_pos (isValid_iff.2 hname),
      mapM_eq_ok_iff.2 hargs]
    rfl

theorem SpellsArg.comma_not_mem {g : Bytes} {a : Arg} (h : SpellsArg g a) : byte ',' ∉ g := by
  obtain ⟨hl, hm, hr, hs, htype, hname⟩ := h
  have hmark : byte ',' ∈ marks := by decide
  rw [append_colon, List.mem_append, List.mem_cons, not_or, not_or]
  exact ⟨not_mem_surround hl (not_mem_token_of_mem_marks htype hmark) hm hmark, by decide,
    not_mem_surround hr (hname.not_mem (isWord_of_mem_marks hmark)) hs hmark⟩

theorem SpellsArg.ne_nil {g : Bytes} {a : Arg} (h : SpellsArg g a) : g ≠ [] := by
  obtain ⟨-, -, -, -, -, -⟩ := h
  rw [append_colon]
  simp

/-- What holds of every text that spells an argument holds of each of a list. -/
theorem forall_of_spellsArgs {P : Bytes → Prop} {gs : List Bytes} {args : List Arg}
    (h : List.Forall₂ SpellsArg gs args) (hP : ∀ g a, SpellsArg g a → P g) : ∀ g ∈ gs, P g :=
  ((List.forall₂_and_left gs args).1 (h.imp fun g a hg => And.intro (hP g a hg) hg)).1

/-- Pieces of one line are arguments for the reader exactly when the rule derives them. -/
theorem spellsArgs_iff {gs : List Bytes} {args : List Arg} :
    List.Forall₂ SpellsArg gs args ↔
      (∀ g ∈ gs, byte '\n' ∉ g) ∧ List.Forall₂ (fun g a => Arg.parse g = .ok a) gs args := by
  rw [← List.forall₂_and_left]
  exact ⟨fun h => h.imp fun g a => spellsArg_iff.1, fun h => h.imp fun g a => spellsArg_iff.2⟩

/-- The line of a rule, read: its blank end goes, and the rest is a reading whose body falls into
the arguments again. -/
theorem reading_of_spells {gap name tail : Bytes} {gs : List Bytes} {args : List Arg}
    (hgap : gap ≠ []) (hsub : ∀ b ∈ gap, b ∈ gapBytes) (hname : IsName name) (hgs : gs ≠ [])
    (hargs : List.Forall₂ SpellsArg gs args) (htail : ∀ b ∈ tail, b ∈ tailBytes) :
    Stripped
        (utf8 "predicate" ++ gap ++ name ++ utf8 "(" ++ joined (utf8 ",") gs ++ utf8 ")" ++ tail)
        (utf8 "predicate" ++ gap ++ name ++ utf8 "(" ++ joined (utf8 ",") gs ++ utf8 ")") ∧
      Reading (utf8 "predicate" ++ gap ++ name ++ utf8 "(" ++ joined (utf8 ",") gs ++ utf8 ")")
        gap name (joined (utf8 ",") gs) ∧
      pieces (byte ',') (joined (utf8 ",") gs) = gs := by
  have hcomma := forall_of_spellsArgs hargs fun g a => SpellsArg.comma_not_mem
  have hfull := forall_of_spellsArgs hargs fun g a => SpellsArg.ne_nil
  have hfeed := (spellsArgs_iff.1 hargs).1
  have hopen : byte '(' ∉ name := hname.not_mem (by decide)
  refine ⟨⟨tail, rfl, htail, ?_⟩, ⟨rfl, hgap, hsub, hname.ne_nil, hopen, ?_, ?_⟩,
    pieces_joined hgs hcomma⟩
  · intro b hb
    have hclose : utf8 ")" = [byte ')'] := rfl
    rw [hclose, List.getLast?_concat, Option.mem_some_iff] at hb
    subst hb
    decide
  · intro hnil
    obtain ⟨g, rest, rfl⟩ := List.exists_cons_of_ne_nil hgs
    have hinfix : g <:+: joined (utf8 ",") (g :: rest) := infix_joined List.mem_cons_self
    rw [hnil, List.infix_nil] at hinfix
    exact hfull g List.mem_cons_self hinfix
  · intro hmem
    rcases mem_of_mem_joined hmem with hsep | ⟨g, hg, hmem⟩
    · exact absurd hsep (by decide)
    · exact hfeed g hg hmem

/-- A line the reader accepts follows the rules. -/
theorem spells_of_parse {line : Bytes} {p : Predicate} (h : Predicate.parse line = .ok p) :
    Spells line p := by
  obtain ⟨t, gap, body, ⟨tail, rfl, htail, -⟩, hread, hname, hargs⟩ := parse_eq_ok_iff_reading.1 h
  have hfeed : ∀ g ∈ pieces (byte ',') body, byte '\n' ∉ g := fun g hg hmem =>
    hread.feed_not_mem_body ((infix_of_mem_pieces hg).mem hmem)
  have hspell := Spells.line hread.gap_ne_nil hread.gap_subset hname
    (pieces_ne_nil (byte ',') body) (spellsArgs_iff.2 ⟨hfeed, hargs⟩) htail
  have hcomma : utf8 "," = [byte ','] := rfl
  rwa [hcomma, joined_pieces, ← hread.text] at hspell

/-- A line that follows the rules is accepted, with what it spells. -/
theorem parse_of_spells {line : Bytes} {p : Predicate} (h : Spells line p) :
    Predicate.parse line = .ok p := by
  obtain ⟨hgap, hsub, hname, hgs, hargs, htail⟩ := h
  obtain ⟨hstrip, hread, hpieces⟩ := reading_of_spells hgap hsub hname hgs hargs htail
  refine parse_eq_ok_iff_reading.2 ⟨_, _, _, hstrip, hread, hname, ?_⟩
  rw [hpieces]
  exact (spellsArgs_iff.1 hargs).2

/-- Only the body of a line holds commas, and they stand between arguments. -/
theorem arity_of_spells {line : Bytes} {p : Predicate} (h : Spells line p) :
    p.arity = line.count (byte ',') + 1 := by
  obtain ⟨hgap, hsub, hname, hgs, hargs, htail⟩ := h
  next gap name tail gs args =>
  obtain ⟨-, -, hpieces⟩ := reading_of_spells hgap hsub hname hgs hargs htail
  have hgap0 : gap.count (byte ',') = 0 :=
    List.count_eq_zero.2 fun hmem => absurd (hsub _ hmem) (by decide)
  have hname0 : name.count (byte ',') = 0 := List.count_eq_zero.2 (hname.not_mem (by decide))
  have htail0 : tail.count (byte ',') = 0 :=
    List.count_eq_zero.2 fun hmem => absurd (htail _ hmem) (by decide)
  have hkey0 : (utf8 "predicate").count (byte ',') = 0 := by decide
  have hopen0 : (utf8 "(").count (byte ',') = 0 := by decide
  have hclose0 : (utf8 ")").count (byte ',') = 0 := by decide
  have hlen := length_pieces (byte ',') (joined (utf8 ",") gs)
  rw [hpieces, hargs.length_eq] at hlen
  simp only [List.count_append, hgap0, hname0, htail0, hkey0, hopen0, hclose0, Nat.zero_add,
    Nat.add_zero]
  exact hlen

/-- **Lines**: the reader accepts exactly what the rules derive, and gives one argument more than
the line has commas. -/
theorem parse_eq_ok_iff_spells (line : Bytes) (p : Predicate) :
    (Predicate.parse line = .ok p ↔ Spells line p) ∧
      (Predicate.parse line = .ok p → p.arity = line.count (byte ',') + 1) :=
  ⟨⟨spells_of_parse, parse_of_spells⟩, fun h => arity_of_spells (spells_of_parse h)⟩

end Grammar

end ZincBind

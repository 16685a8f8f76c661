import ZincBind.Proofs.Emit.Hygiene

/-!
# ZincBind.Proofs.Emit.FieldNames

When two arguments of a predicate get one field.  The names that a line gives its arguments are read
off the line alone (`sourceNames`); the reader keeps their number and order and shortens each
without a look at the others (`forall₂_sourceNames`).  Of two distinct names, shortening makes one
only if both are short and begin alike (`shorten_eq_shorten_iff`), and fields are called like
arguments, so this tells the structs that have a field twice.
-/

namespace ZincBind

open Bytes Grammar

/-! ## Shortening -/

theorem shorten_cons (b : UInt8) (bs : Bytes) :
    Identifier.shorten (b :: bs) = if bs.length ≤ 1 then [b] else b :: bs := by
  match bs with
  | [] => rfl
  | [_] => rfl
  | _ :: _ :: _ => simp [Identifier.shorten]

theorem shorten_isPrefix (name : Bytes) : Identifier.shorten name <+: name := by
  rw [Identifier.shorten]
  split
  · exact List.take_prefix 1 name
  · exact List.prefix_rfl

/-- **Collisions**: of two distinct names one is made exactly if they begin alike and neither has
more than two bytes. -/
theorem shorten_eq_shorten_iff {m n : Bytes} (hm : m ≠ []) (hn : n ≠ []) (hne : m ≠ n) :
    Identifier.shorten m = Identifier.shorten n ↔
      m.head? = n.head? ∧ m.length ≤ 2 ∧ n.length ≤ 2 := by
  obtain ⟨b, bs, rfl⟩ := List.exists_cons_of_ne_nil hm
  obtain ⟨c, cs, rfl⟩ := List.exists_cons_of_ne_nil hn
  have hlong : ∀ {ds : Bytes}, ¬ ds.length ≤ 1 → ds ≠ [] := by
    rintro _ hlength rfl
    exact hlength (Nat.zero_le 1)
  rw [shorten_cons, shorten_cons, List.length_cons, List.length_cons]
  by_cases hbs : bs.length ≤ 1 <;> by_cases hcs : cs.length ≤ 1
  · simp [hbs, hcs]
  · simp [hbs, hcs, (hlong hcs).symm]
  · simp [hbs, hcs, hlong hbs]
  · simpa [hbs, hcs] using hne

/-! ## The names in a line -/

/-- What stands in a text up to its first comma or closing parenthesis, without blanks around it. -/
def leadingName (bs : Bytes) : Bytes := trim (bs.takeWhile fun b => !(utf8 ",)").contains b)

/-- The names that a line gives its arguments: what stands behind each colon, up to the next comma
or closing parenthesis. -/
def sourceNames (line : Bytes) : List Bytes := ((pieces (byte ':') line).drop 1).map leadingName

/-- An argument that is read off what stands behind its colon. -/
def ReadsName (behind : Bytes) (a : Arg) : Prop :=
  IsName (leadingName behind) ∧ a.name = Identifier.shorten (leadingName behind)

/-- The colon of an argument has no colon before it, and what stands behind it, whatever follows
after a comma or a closing parenthesis, is the name. -/
theorem Grammar.SpellsArg.exists_colon {g : Bytes} {a : Arg} (h : SpellsArg g a) :
    ∃ l r : Bytes, g = l ++ byte ':' :: r ∧ byte ':' ∉ l ∧ byte ':' ∉ r ∧
      ∀ stop ∈ utf8 ",)", ∀ rest, ReadsName (r ++ stop :: rest) a := by
  obtain ⟨hl, hm, hr, hs, htype, hname⟩ := h
  next l m r name s type =>
  have hcolon : byte ':' ∈ marks := by decide
  refine ⟨_, _, append_colon l type.token m r name s,
    not_mem_surround hl (not_mem_token_of_mem_marks htype hcolon) hm hcolon,
    not_mem_surround hr (hname.not_mem (isWord_of_mem_marks hcolon)) hs hcolon, ?_⟩
  intro stop hstop rest
  have hstops : ∀ b ∈ utf8 ",)",
      b.toNat < 128 ∧ 32 < b.toNat ∧ Identifier.isWord b = false :=
    forall_mem_of_all (by decide)
  have hpass : ∀ b ∈ r ++ name ++ s, (!(utf8 ",)").contains b) = true := by
    intro b hb
    rw [Bool.not_eq_true', ← Bool.not_eq_true, List.contains_iff_mem]
    intro hmem
    obtain ⟨hascii, hvisible, hword⟩ := hstops b hmem
    simp only [List.mem_append] at hb
    obtain (hb | hb) | hb := hb
    · exact hr.not_mem hascii (Or.inr hvisible) hb
    · exact hname.not_mem hword hb
    · exact hs.not_mem hascii (Or.inr hvisible) hb
  have hlead : leadingName (r ++ name ++ s ++ stop :: rest) = name := by
    rw [leadingName, List.takeWhile_append_of_pos hpass,
      List.takeWhile_cons_of_neg (by simpa using hstop), List.append_nil,
      trim_surround hr hname.isSolid hs]
  rw [ReadsName, hlead]
  exact ⟨hname, rfl⟩

/-- **One argument after the other**: cut at its colons, a text that ends in arguments has one piece
more than there are arguments, each argument is read off the piece behind its colon, and the first
piece begins with what stands before the arguments. -/
theorem exists_pieces_of_spellsArgs {gs : List Bytes} {args : List Arg}
    (h : List.Forall₂ SpellsArg gs args) (hgs : gs ≠ []) {before tail : Bytes}
    (hbefore : byte ':' ∉ before) (htail : byte ':' ∉ tail) :
    ∃ first rest, pieces (byte ':') (before ++ (joined (utf8 ",") gs ++ byte ')' :: tail)) =
        first :: rest ∧ before <+: first ∧ List.Forall₂ ReadsName rest args := by
  induction h generalizing before with
  | nil => contradiction
  | @cons g a gs args hg hargs ih =>
      obtain ⟨l, r, rfl, hl, hr, hread⟩ := hg.exists_colon
      have hfirst : pieces (byte ':') (before ++ l) = [before ++ l] :=
        pieces_of_not_mem (by simp [hbefore, hl])
      cases hargs with
      | nil =>
          have hlast : byte ':' ∉ r ++ byte ')' :: tail := by
            have hne : byte ':' ≠ byte ')' := by decide
            simp [hr, hne, htail]
          have htext : before ++ (joined (utf8 ",") [l ++ byte ':' :: r] ++ byte ')' :: tail) =
              (before ++ l) ++ byte ':' :: (r ++ byte ')' :: tail) := by simp
          refine ⟨before ++ l, [r ++ byte ')' :: tail], ?_, List.prefix_append _ _,
            .cons (hread _ (by decide) tail) .nil⟩
          rw [htext, pieces_append_cons, hfirst, pieces_of_not_mem hlast]
          rfl
      | @cons g' _ gs' _ hg' hargs' =>
          have hcomma : utf8 "," = [byte ','] := rfl
          have hnext : byte ':' ∉ r ++ [byte ','] := by
            have hne : byte ':' ≠ byte ',' := by decide
            simp [hr, hne]
          have htext : before ++
              (joined (utf8 ",") ((l ++ byte ':' :: r) :: g' :: gs') ++ byte ')' :: tail) =
              (before ++ l) ++ byte ':' ::
                (r ++ [byte ','] ++ (joined (utf8 ",") (g' :: gs') ++ byte ')' :: tail)) := by
            simp [joined_cons_cons, hcomma]
          -- the piece behind this colon goes on with the next argument up to its colon
          obtain ⟨_, rest, hpieces, ⟨more, rfl⟩, hrest⟩ := ih (List.cons_ne_nil g' gs') hnext
          have hpiece : r ++ [byte ','] ++ more = r ++ byte ',' :: more := by simp
          rw [hpiece] at hpieces
          refine ⟨before ++ l, (r ++ byte ',' :: more) :: rest, ?_, List.prefix_append _ _,
            .cons (hread _ (by decide) more) hrest⟩
          rw [htext, pieces_append_cons, hfirst, hpieces]
          rfl

/-- **Names**: the reader keeps the names of a line in number and order, each shortened. -/
theorem forall₂_sourceNames {line : Bytes} {p : Predicate} (h : Predicate.parse line = .ok p) :
    List.Forall₂ (fun n a => IsName n ∧ a.name = Identifier.shorten n) (sourceNames line)
      p.args := by
  obtain ⟨hgap, hsub, hname, hgs, hargs, htail⟩ := spells_of_parse h
  next gap name tail gs args =>
  have hgapBytes : byte ':' ∉ gapBytes := by decide
  have htailBytes : byte ':' ∉ tailBytes := by decide
  have hhead : byte ':' ∉ utf8 "predicate" ++ gap ++ name ++ utf8 "(" := by
    simp only [List.mem_append, not_or]
    exact ⟨⟨⟨by decide, fun hmem => hgapBytes (hsub _ hmem)⟩, hname.not_mem (by decide)⟩, by decide⟩
  obtain ⟨first, rest, hpieces, -, hrest⟩ :=
    exists_pieces_of_spellsArgs hargs hgs hhead fun hmem => htailBytes (htail _ hmem)
  have hclose : utf8 ")" = [byte ')'] := rfl
  rw [sourceNames, hclose, List.append_assoc, List.append_assoc, List.singleton_append, hpieces,
    List.drop_one, List.tail_cons, List.forall₂_map_left_iff]
  exact hrest

/-- **Fields**: a line that gives its arguments distinct names is read with as many arguments, in
order, each called by a name that its own name in the line begins with.  Two of them are called
alike exactly if their names in the line begin with one character and have at most two.  The struct
has a field of that name for each of them. -/
theorem fields_collide_iff {line : Bytes} {p : Predicate} (hparse : Predicate.parse line = .ok p)
    (hnodup : (sourceNames line).Nodup) :
    p.args.length = (sourceNames line).length ∧
    (∀ i : Nat, ∀ n ∈ (sourceNames line)[i]?, ∀ a ∈ p.args[i]?, IsName a.name ∧ a.name <+: n) ∧
    (∀ i j : Nat, i ≠ j → ∀ m ∈ (sourceNames line)[i]?, ∀ n ∈ (sourceNames line)[j]?,
      ∀ a ∈ p.args[i]?, ∀ b ∈ p.args[j]?,
        (a.name = b.name ↔ m.head? = n.head? ∧ m.length ≤ 2 ∧ n.length ≤ 2)) ∧
    ∀ o : Options, o.IsInline → (p.emit o).fields.map Prod.fst = p.args.map Arg.name := by
  have hnames := forall₂_sourceNames hparse
  have hget : ∀ i : Nat, ∀ n ∈ (sourceNames line)[i]?, ∀ a ∈ p.args[i]?,
      IsName n ∧ a.name = Identifier.shorten n := by
    intro i n hn a ha
    obtain ⟨hi, rfl⟩ := List.getElem?_eq_some_iff.1 hn
    obtain ⟨hj, rfl⟩ := List.getElem?_eq_some_iff.1 ha
    exact hnames.get hi hj
  refine ⟨hnames.length_eq.symm, ?_, ?_, ?_⟩
  · intro i n hn a ha
    obtain ⟨hname, hshort⟩ := hget i n hn a ha
    rw [hshort]
    exact ⟨isName_shorten hname, shorten_isPrefix n⟩
  · intro i j hij m hm n hn a ha b hb
    obtain ⟨hmname, hashort⟩ := hget i m hm a ha
    obtain ⟨hnname, hbshort⟩ := hget j n hn b hb
    have hne : m ≠ n := by
      rintro rfl
      obtain ⟨hi, -⟩ := List.getElem?_eq_some_iff.1 hm
      exact hij ((List.getElem?_inj hi hnodup).1 (hm.trans hn.symm))
    rw [hashort, hbshort]
    exact shorten_eq_shorten_iff hmname.ne_nil hnname.ne_nil hne
  · intro o ho
    rw [PredicateFile.fields_emit ho (isDeclarable_of_parse hparse), List.map_map]
    rfl

/-- The predicate of `predicate p(int: x1, int : x2 , int: xyz)`. -/
def twins : Predicate :=
  ⟨utf8 "p", [utf8 "x", utf8 "x", utf8 "xyz"].map
    fun name => ⟨ArgType.ofTarget "int" "Int" "types::Int" "int_from_expr", name⟩⟩

/-- Of three names with one first letter the two short ones become one field, and the long one
keeps its own. -/
theorem twins_collide :
    sourceNames (utf8 "predicate p(int: x1, int : x2 , int: xyz)") =
        [utf8 "x1", utf8 "x2", utf8 "xyz"] ∧
      Predicate.parse (utf8 "predicate p(int: x1, int : x2 , int: xyz)") = .ok twins ∧
      (twins.emit Options.standard).fields.map Prod.fst = [utf8 "x", utf8 "x", utf8 "xyz"] ∧
      utf8 "x" ≠ utf8 "xyz" := by
  have hnames : sourceNames (utf8 "predicate p(int: x1, int : x2 , int: xyz)") =
      [utf8 "x1", utf8 "x2", utf8 "xyz"] := by decide
  have hparse : Predicate.parse (utf8 "predicate p(int: x1, int : x2 , int: xyz)") =
      .ok twins := by rfl
  have hnodup : (sourceNames (utf8 "predicate p(int: x1, int : x2 , int: xyz)")).Nodup := by
    rw [hnames]
    decide
  obtain ⟨-, -, hcollide, hfields⟩ := fields_collide_iff hparse hnodup
  rw [hnames] at hcollide
  have hapart := hcollide 0 2 (by decide) _ rfl _ rfl _ rfl _ rfl
  refine ⟨hnames, hparse, hfields _ Options.isInline_standard, fun heq => ?_⟩
  exact absurd (hapart.1 heq) (by decide)

end ZincBind

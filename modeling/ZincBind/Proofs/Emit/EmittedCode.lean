import ZincBind.Proofs.Emit.Code
import ZincBind.Proofs.Traversal

/-!
# ZincBind.Proofs.Emit.EmittedCode

The code of a predicate's file, given in full (`code?_emit`): what the constructor builds the struct
from, what the FlatZinc text is made of, and the statements of the reader, which are two checks and
a binding for each argument.  Each block of the file is cut where its pieces begin, and the pieces
are then read one by one:

* `text?_emit` — the FlatZinc text;
* `flatten_statementBlocks`, `mapM_statementBlocks` — the statements of the reader;
* `filter_implBody`, `mapM_memberBlocks` — the members of the implementation.
-/

namespace ZincBind

open Bytes Grammar

namespace PredicateFile

/-! ## What the code says -/

/-- The FlatZinc text: the name, and the fields in parentheses. -/
def textOf (p : Predicate) : Message Operand where
  template := [] :: utf8 "(" :: (List.replicate (p.arity - 1) (utf8 ", ") ++ [utf8 ")\n"])
  operands := .constant (utf8 "NAME") :: p.args.map fun a => .field a.name

/-- The checks of the reader. -/
def checks : List Statement :=
  [.ensure .id (.constant (utf8 "NAME"))
    ⟨[utf8 "'", utf8 "' expected but received '", utf8 "'"], [.constant (utf8 "NAME"), .id]⟩,
   .ensure .count (.constant (utf8 "NB_ARGS"))
    ⟨[[], utf8 " args expected but received ", []], [.constant (utf8 "NB_ARGS"), .count]⟩]

/-- The reader: the checks, and a binding for each argument. -/
def readerOf (p : Predicate) : Reader where
  statements := checks ++ (bindingsOf p.args).map .bind
  passed := p.args.map Arg.name

/-- The members of the implementation. -/
def membersOf (modelParam : Bytes) (p : Predicate) : List Member :=
  [.constant (utf8 "NAME") (utf8 "\"" ++ p.name ++ utf8 "\""),
   .constant (utf8 "NB_ARGS") (decimal p.arity),
   .function (utf8 "new") (params p ++ utf8 ") -> Self \x7b")
    [utf8 "        Self \x7b " ++ fields p ++ utf8 " \x7d"]] ++
  p.args.map (fun a => .function a.name (utf8 "&self) -> &" ++ (a.type.target ++ utf8 " \x7b"))
    [utf8 "        &self." ++ a.name]) ++
  [.function (utf8 "try_from_item")
    (utf8 "item: ConstraintItem, model: " ++ (modelParam ++ utf8 ") -> anyhow::Result<Self> \x7b"))
    (checkLines ++ letLines 0 p.args ++ [utf8 "        Ok(Self::new(" ++ fields p ++ utf8 "))"])]

/-! ## The FlatZinc text -/

/-- The arguments of the call that makes the FlatZinc text. -/
def textArguments (p : Predicate) : List Bytes :=
  (utf8 "\"" ++ ((utf8 "\x7b\x7d(" ++ placeholders p ++ utf8 ")\\n") ++ utf8 "\"")) ::
    (utf8 "Self::" ++ utf8 "NAME") ::
      p.args.map fun a => utf8 "self." ++ (a.name ++ utf8 ".fzn()")

/-- The texts around the placeholders of the FlatZinc text. -/
theorem template?_format {p : Predicate} (hp : p.IsDeclarable) :
    template? (utf8 "\x7b\x7d(" ++ placeholders p ++ utf8 ")\\n") =
      some ([] :: utf8 "(" :: (List.replicate (p.arity - 1) (utf8 ", ") ++ [utf8 ")\n"])) := by
  obtain ⟨a, as, hargs⟩ := List.exists_cons_of_ne_nil hp.args_ne_nil
  have hopen : utf8 "\x7b\x7d(" = utf8 "\x7b\x7d" ++ [byte '('] := by decide
  have hend : template? (utf8 ")\\n") = some [utf8 ")\n"] := by decide
  have hround : byte '(' ∉ formatMarks := by decide
  rw [hopen, List.append_assoc, List.append_assoc, template?_pair, List.singleton_append,
    template?_cons hround, placeholders, Predicate.arity, hargs, template?_list a as hend]
  rfl

theorem between?_formatLine (p : Predicate) :
    between? (utf8 "            ") (utf8 ",")
      (utf8 "            \"\x7b\x7d(" ++ placeholders p ++ utf8 ")\\n\",") =
        some (utf8 "\"" ++ ((utf8 "\x7b\x7d(" ++ placeholders p ++ utf8 ")\\n") ++ utf8 "\"")) := by
  have hstart : utf8 "            \"\x7b\x7d(" =
      utf8 "            " ++ (utf8 "\"" ++ utf8 "\x7b\x7d(") := by decide
  have hend : utf8 ")\\n\"," = utf8 ")\\n" ++ (utf8 "\"" ++ utf8 ",") := by decide
  have hline := between?_append (utf8 "            ")
    (utf8 "\"" ++ ((utf8 "\x7b\x7d(" ++ placeholders p ++ utf8 ")\\n") ++ utf8 "\"")) (utf8 ",")
  simpa only [hstart, hend, List.append_assoc] using hline

theorem between?_fznLine (a : Arg) :
    between? (utf8 "            ") (utf8 ",") (fznLine a) =
      some (utf8 "self." ++ (a.name ++ utf8 ".fzn()")) := by
  have hstart : utf8 "            self." = utf8 "            " ++ utf8 "self." := by decide
  have hend : utf8 ".fzn()," = utf8 ".fzn()" ++ utf8 "," := by decide
  have hline := between?_append (utf8 "            ")
    (utf8 "self." ++ (a.name ++ utf8 ".fzn()")) (utf8 ",")
  simpa only [fznLine, hstart, hend, List.append_assoc] using hline

theorem mapM_textArguments (p : Predicate) :
    ((utf8 "            \"\x7b\x7d(" ++ placeholders p ++ utf8 ")\\n\",") ::
      utf8 "            Self::NAME," :: p.args.map fznLine).mapM
        (between? (utf8 "            ") (utf8 ",")) = some (textArguments p) := by
  have hname : between? (utf8 "            ") (utf8 ",") (utf8 "            Self::NAME,") =
      some (utf8 "Self::" ++ utf8 "NAME") := by decide
  have hfields := Traversal.mapM_map_of_some fun a (_ : a ∈ p.args) => between?_fznLine a
  simp only [List.mapM_cons, between?_formatLine, hname, hfields, Option.bind_eq_bind,
    Option.bind_some, Option.pure_def, textArguments]

theorem ofTexts?_textArguments {p : Predicate} (hp : p.IsDeclarable) :
    Message.ofTexts? (textArguments p) = some (textOf p) := by
  have hfields : (p.args.map fun a => utf8 "self." ++ (a.name ++ utf8 ".fzn()")).mapM
      Operand.ofText? = some (p.args.map fun a => .field a.name) :=
    Traversal.mapM_map_of_some fun a _ => Operand.ofText?_field a.name
  have harity : (p.arity - 1) + 1 = p.args.length :=
    Nat.sub_add_cancel (List.length_pos_of_ne_nil hp.args_ne_nil)
  have hlength : (textOf p).template.length = (textOf p).operands.length + 1 := by
    simp [textOf, harity]
  simp only [textArguments, Message.ofTexts?, between?_append, Option.bind_some,
    template?_format hp, List.mapM_cons, Operand.ofText?_constant, hfields, Option.bind_eq_bind,
    Option.pure_def]
  exact if_pos hlength

theorem text?_emit {o : Options} (ho : o.IsInline) {p : Predicate} (hp : p.IsDeclarable) :
    (p.emit o).text? = some (textOf p) := by
  have hcall := spread?_append (utf8 "        format!(") (utf8 "        )") (mapM_textArguments p)
  have hbody : fznBody p = utf8 "    fn fzn(&self) -> String \x7b" ::
      ((utf8 "        format!(" ::
        (((utf8 "            \"\x7b\x7d(" ++ placeholders p ++ utf8 ")\\n\",") ::
          utf8 "            Self::NAME," :: p.args.map fznLine) ++ [utf8 "        )"])) ++
        [utf8 "    \x7d"]) := by
    simp only [fznBody, List.append_assoc, List.cons_append, List.nil_append]
  rw [OutputFile.text?, fznBlock_emit ho hp, hbody]
  simp only [List.getLast?_concat, List.dropLast_concat, and_self, if_true, hcall,
    Option.bind_some, ofTexts?_textArguments hp]

/-! ## The reader -/

theorem letLines_eq_map (n : Nat) (args : List Arg) :
    letLines n args = (args.zipIdx n).map fun (a, i) => letLine a i := by
  induction args generalizing n with
  | nil => rfl
  | cons a as ih => rw [letLines, ih, List.zipIdx_cons, List.map_cons]

/-- The lines of the reader's statements. -/
def statementBlocks (args : List Arg) : List (List Bytes) :=
  [checkLines.take 6, checkLines.drop 6] ++ args.zipIdx.map fun (a, i) => [letLine a i]

theorem flatten_statementBlocks (args : List Arg) :
    (statementBlocks args).flatten = checkLines ++ letLines 0 args := by
  have hlet : (args.zipIdx.map fun (a, i) => [letLine a i]).flatten = letLines 0 args := by
    rw [letLines_eq_map, ← List.flatMap_def, List.map_eq_flatMap]
  rw [statementBlocks, List.flatten_append, hlet, List.flatten_cons, List.flatten_singleton,
    List.take_append_drop]

theorem opensWith_statementBlocks (args : List Arg) :
    ∀ block ∈ statementBlocks args, OpensWith Statement.begins block := by
  have hchecks : ∀ block ∈ [checkLines.take 6, checkLines.drop 6],
      OpensWith Statement.begins block := by decide +kernel
  refine List.forall_mem_append.2 ⟨hchecks, List.forall_mem_map.2 fun (a, i) _ => ?_⟩
  have hdeeper := after?_literal (s := "            ") (t := "        let ")
    ⟨_, _, rfl, rfl, by decide⟩ (a.name ++ (utf8 " = " ++ (a.type.converter ++
      (utf8 "(&item.exprs[" ++ (decimal i ++ utf8 "], model)?;")))))
  have hclosing : letLine a i ≠ utf8 "        );" := by
    simp only [letLine, List.append_assoc]
    exact (literal_ne_append ⟨_, _, rfl, rfl, by decide⟩ _).symm
  rw [opensWith_cons_iff, Statement.begins]
  simp only [letLine, List.append_assoc] at hclosing ⊢
  simp [hdeeper, hclosing]

theorem mapM_statementBlocks {args : List Arg} (hname : ∀ a ∈ args, IsName a.name)
    (htype : ∀ a ∈ args, a.type ∈ ArgType.registry) :
    (statementBlocks args).mapM Statement.ofLines? =
      some (checks ++ (bindingsOf args).map .bind) := by
  have hfirst : Statement.ofLines? (checkLines.take 6) = some checks[0] := by decide +kernel
  have hsecond : Statement.ofLines? (checkLines.drop 6) = some checks[1] := by decide +kernel
  have hlet : ∀ x ∈ args.zipIdx, Statement.ofLines? [letLine x.1 x.2] =
      some (.bind ⟨x.1.name, x.1.type.converter, x.2⟩) := by
    intro x hx
    have ha := List.fst_mem_of_mem_zipIdx hx
    rw [Statement.ofLines?, ofLine?_letLine (hname _ ha) (htype _ ha)]
    rfl
  simp only [statementBlocks, List.cons_append, List.nil_append, List.mapM_cons, hfirst, hsecond,
    Traversal.mapM_map_of_some hlet, bindingsOf, List.map_map]
  rfl

/-! ## The members -/

/-- The lines of the members. -/
def memberBlocks (modelParam : Bytes) (p : Predicate) : List (List Bytes) :=
  [(constructorLines p).take 1, ((constructorLines p).drop 1).take 1,
      (constructorLines p).drop 3] ++
    p.args.map (fun a => (accessorLines a).drop 1) ++ [readerLines modelParam p]

theorem bne_nil_literal {s : String}
    (h : ∃ c cs, s = String.ofList (c :: cs) ∧ String.utf8EncodeChar c = [byte c]) (rest : Bytes) :
    (utf8 s ++ rest != []) = true := by
  obtain ⟨c, cs, rfl, hc⟩ := h
  rw [utf8_ofList_cons, hc]
  rfl

/-- Without empty lines, the implementation is made of its members. -/
theorem filter_implBody (modelParam : Bytes) (p : Predicate) :
    (implBody modelParam p).filter (· != []) = (memberBlocks modelParam p).flatten := by
  have hblank : (([] : Bytes) != []) = false := rfl
  have hbrace : (utf8 "    \x7d" != []) = true := rfl
  have hconstructor : (constructorLines p).filter (· != []) =
      (constructorLines p).take 2 ++ (constructorLines p).drop 3 := by
    simp (disch := exact ⟨_, _, rfl, by decide⟩) only [constructorLines, List.append_assoc,
      List.filter_cons, List.filter_nil, bne_nil_literal, hblank, hbrace, if_true,
      Bool.false_eq_true, if_false]
    rfl
  have haccessor (a : Arg) : (accessorLines a).filter (· != []) = (accessorLines a).drop 1 := by
    simp (disch := exact ⟨_, _, rfl, by decide⟩) only [accessorLines, List.append_assoc,
      List.filter_cons, List.filter_nil, bne_nil_literal, hblank, hbrace, if_true,
      Bool.false_eq_true, if_false]
    rfl
  have hreader : (readerLines modelParam p).filter (· != []) = readerLines modelParam p := by
    have hchecks : checkLines.filter (· != []) = checkLines := by decide +kernel
    have hlet : (letLines 0 p.args).filter (· != []) = letLines 0 p.args := by
      refine List.filter_eq_self.2 fun l hl => ?_
      obtain ⟨a, -, index, rfl⟩ := mem_letLines hl
      simp only [letLine, List.append_assoc]
      exact bne_nil_literal ⟨_, _, rfl, by decide⟩ _
    simp (disch := exact ⟨_, _, rfl, by decide⟩) only [readerLines_eq, List.append_assoc,
      List.filter_append, List.filter_cons, List.filter_nil, bne_nil_literal, hchecks, hlet,
      hbrace, if_true]
  have hpair : (constructorLines p).take 2 =
      (constructorLines p).take 1 ++ ((constructorLines p).drop 1).take 1 := rfl
  rw [implBody, List.filter_append, List.filter_append, List.filter_append, hconstructor, hreader,
    List.filter_flatMap]
  simp only [haccessor, memberBlocks, List.flatten_append, List.flatMap_def, hpair]
  simp

/-- A line that begins a member, told by its characters. -/
theorem begins_literal {s : String}
    (h : ∃ cs, s = String.ofList (' ' :: ' ' :: ' ' :: ' ' :: 'p' :: 'u' :: 'b' :: ' ' :: cs))
    (rest : Bytes) : Member.begins (utf8 s ++ rest) = true := by
  obtain ⟨cs, rfl⟩ := h
  have hstart : utf8 (String.ofList (' ' :: ' ' :: ' ' :: ' ' :: 'p' :: 'u' :: 'b' :: ' ' :: cs)) =
      utf8 "    pub " ++ utf8 (String.ofList cs) := by
    simp only [utf8_ofList_cons]
    rfl
  rw [hstart, List.append_assoc, Member.begins, after?_append]
  rfl

/-- The lines inside a function are indented further. -/
theorem not_begins_literal {s : String} (h : Clash "    pub " s) (rest : Bytes) :
    Member.begins (utf8 s ++ rest) = false := by
  rw [Member.begins, after?_literal h]
  rfl

theorem opensWith_memberBlocks (modelParam : Bytes) (p : Predicate) :
    ∀ block ∈ memberBlocks modelParam p, OpensWith Member.begins block := by
  have hbrace : Member.begins (utf8 "    \x7d") = false := by decide
  have hname := begins_literal (s := "    pub const NAME: &str = \"") ⟨_, rfl⟩
  have harity := begins_literal (s := "    pub const NB_ARGS: usize = ") ⟨_, rfl⟩
  have hnew := begins_literal (s := "    pub fn new(") ⟨_, rfl⟩
  have hfunction := begins_literal (s := "    pub fn ") ⟨_, rfl⟩
  have hreads := begins_literal (s := "    pub fn try_from_item(item: ConstraintItem, model: ")
    ⟨_, rfl⟩
  have hconstructor : OpensWith Member.begins ((constructorLines p).take 1) ∧
      OpensWith Member.begins (((constructorLines p).drop 1).take 1) ∧
      OpensWith Member.begins ((constructorLines p).drop 3) := by
    simp (disch := exact ⟨_, _, rfl, rfl, by decide⟩) only [constructorLines, List.append_assoc,
      List.take_succ_cons, List.take_zero, List.drop_succ_cons, List.drop_zero,
      opensWith_cons_iff, allLines_cons_iff, allLines_nil, hname, harity, hnew, not_begins_literal,
      hbrace, and_self]
  have haccessor (a : Arg) : OpensWith Member.begins ((accessorLines a).drop 1) := by
    simp (disch := exact ⟨_, _, rfl, rfl, by decide⟩) only [accessorLines, List.append_assoc,
      List.drop_succ_cons, List.drop_zero, opensWith_cons_iff, allLines_cons_iff, allLines_nil,
      hfunction, not_begins_literal, hbrace, and_self]
  have hreader : OpensWith Member.begins (readerLines modelParam p) := by
    have hchecks : AllLines (Member.begins · = false) checkLines := by decide +kernel
    have hlet : AllLines (Member.begins · = false) (letLines 0 p.args) := by
      intro l hl
      obtain ⟨a, -, index, rfl⟩ := mem_letLines hl
      simp only [letLine, List.append_assoc]
      exact not_begins_literal ⟨_, _, rfl, rfl, by decide⟩ _
    simp (disch := exact ⟨_, _, rfl, rfl, by decide⟩) only [readerLines_eq, List.append_assoc,
      opensWith_cons_iff, allLines_append_iff, allLines_cons_iff, allLines_nil, hreads, hchecks,
      hlet, not_begins_literal, hbrace, and_self]
  rw [memberBlocks, List.forall_mem_append, List.forall_mem_append, List.forall_mem_cons,
    List.forall_mem_cons, List.forall_mem_singleton, List.forall_mem_map, List.forall_mem_singleton]
  exact ⟨⟨hconstructor, fun a _ => haccessor a⟩, hreader⟩

theorem mapM_memberBlocks (modelParam : Bytes) {p : Predicate} (hp : p.IsDeclarable) :
    (memberBlocks modelParam p).mapM Member.ofLines? = some (membersOf modelParam p) := by
  have hname : Member.ofLines? ((constructorLines p).take 1) =
      some (.constant (utf8 "NAME") (utf8 "\"" ++ p.name ++ utf8 "\"")) := by
    simp only [constructorLines, List.append_assoc, List.take_succ_cons, List.take_zero,
      Member.ofLines?, ofLine?_nameLine, if_true]
  have harity : Member.ofLines? (((constructorLines p).drop 1).take 1) =
      some (.constant (utf8 "NB_ARGS") (decimal p.arity)) := by
    simp only [constructorLines, List.append_assoc, List.drop_succ_cons, List.drop_zero,
      List.take_succ_cons, List.take_zero, Member.ofLines?, ofLine?_arityLine, if_true]
  have hnew : Member.ofLines? ((constructorLines p).drop 3) =
      some (.function (utf8 "new") (params p ++ utf8 ") -> Self \x7b")
        [utf8 "        Self \x7b " ++ fields p ++ utf8 " \x7d"]) := by
    simp only [constructorLines, List.append_assoc, List.drop_succ_cons, List.drop_zero,
      Member.ofLines?, ofLine?_newLine]
    rfl
  have haccessor : ∀ a ∈ p.args, Member.ofLines? ((accessorLines a).drop 1) =
      some (.function a.name (utf8 "&self) -> &" ++ (a.type.target ++ utf8 " \x7b"))
        [utf8 "        &self." ++ a.name]) := by
    intro a ha
    simp only [accessorLines, List.append_assoc, List.drop_succ_cons, List.drop_zero,
      Member.ofLines?, ofLine?_accessorLine (hp.arg_name a ha).1]
    rfl
  have hreader : Member.ofLines? (readerLines modelParam p) =
      some (.function (utf8 "try_from_item") (utf8 "item: ConstraintItem, model: " ++
        (modelParam ++ utf8 ") -> anyhow::Result<Self> \x7b"))
        (checkLines ++ letLines 0 p.args ++
          [utf8 "        Ok(Self::new(" ++ fields p ++ utf8 "))"])) := by
    have hbody : checkLines ++ letLines 0 p.args ++
          [utf8 "        Ok(Self::new(" ++ fields p ++ utf8 "))", utf8 "    \x7d"] =
        checkLines ++ letLines 0 p.args ++ [utf8 "        Ok(Self::new(" ++ fields p ++ utf8 "))"] ++
          [utf8 "    \x7d"] := by simp
    rw [readerLines_eq, hbody, List.append_assoc, Member.ofLines?, ofLine?_readerLine]
    simp only [List.getLast?_concat, List.dropLast_concat, if_true]
  simp only [memberBlocks, membersOf, List.mapM_append, List.mapM_cons, List.mapM_nil, hname,
    harity, hnew, hreader, Traversal.mapM_map_of_some haccessor, Option.bind_eq_bind,
    Option.bind_some, Option.pure_def]

/-! ## The file -/

section

variable {o : Options} (ho : o.IsInline) {p : Predicate} (hp : p.IsDeclarable)
include ho hp

theorem members?_emit : (p.emit o).members? = some (membersOf o.modelParam p) := by
  rw [OutputFile.members?, implBlock_emit ho hp, filter_implBody,
    splitBy_flatten (opensWith_memberBlocks o.modelParam p), mapM_memberBlocks o.modelParam hp]

omit ho in
/-- The constructor is the first function so called, also if there is another. -/
theorem findSome?_builder (modelParam : Bytes) :
    (membersOf modelParam p).findSome? Member.builder? =
      some ⟨p.args.map Arg.name, p.args.map Arg.name⟩ := by
  have hparams := Traversal.mapM_map_of_some fun a (ha : a ∈ p.args) => typed?_param hp ha
  have hbuilder : Member.builder? (.function (utf8 "new") (params p ++ utf8 ") -> Self \x7b")
      [utf8 "        Self \x7b " ++ fields p ++ utf8 " \x7d"]) =
        some ⟨p.args.map Arg.name, p.args.map Arg.name⟩ := by
    simp [Member.builder?, listed_params hp, hparams, Part.ofLine?_literal, Part.literal?,
      listed_fields hp, Function.comp_def]
  have hconstant (name value : Bytes) : Member.builder? (.constant name value) = none := rfl
  simp only [membersOf, List.findSome?_append, List.findSome?_cons, hconstant, hbuilder,
    Option.some_or]

omit ho in
/-- The reader is the first function with its parameters, also if another is called like it. -/
theorem findSome?_reader (modelParam : Bytes) :
    (membersOf modelParam p).findSome? Member.reader? = some (readerOf p) := by
  have hconstant (name value : Bytes) : Member.reader? (.constant name value) = none := rfl
  have hnew (signature : Bytes) (body : List Bytes) :
      Member.reader? (.function (utf8 "new") signature body) = none := by
    rw [Member.reader?, if_neg (by decide)]
  have haccessors : (p.args.map fun a => Member.function a.name
      (utf8 "&self) -> &" ++ (a.type.target ++ utf8 " \x7b"))
      [utf8 "        &self." ++ a.name]).findSome? Member.reader? = none := by
    refine List.findSome?_eq_none_iff.2 (List.forall_mem_map.2 fun a _ => ?_)
    have hself : between? (utf8 "item: ConstraintItem, model: ")
        (utf8 ") -> anyhow::Result<Self> \x7b")
        (utf8 "&self) -> &" ++ (a.type.target ++ utf8 " \x7b")) = none :=
      between?_literal ⟨_, _, rfl, rfl, by decide⟩ _ _
    simp [Member.reader?, hself]
  have hstatements := mapM_statementBlocks (fun a ha => (hp.arg_name a ha).1) hp.type_mem
  have hblocks := splitBy_flatten (opensWith_statementBlocks p.args)
  rw [flatten_statementBlocks] at hblocks
  have hcall : Part.ofLine? (utf8 "        Ok(Self::new(" ++ fields p ++ utf8 "))") =
      some (.call (fields p)) := by rw [List.append_assoc, Part.ofLine?_call]
  have hreader : Member.reader? (.function (utf8 "try_from_item")
      (utf8 "item: ConstraintItem, model: " ++
        (modelParam ++ utf8 ") -> anyhow::Result<Self> \x7b"))
      (checkLines ++ letLines 0 p.args ++ [utf8 "        Ok(Self::new(" ++ fields p ++ utf8 "))"])) =
        some (readerOf p) := by
    simp only [Member.reader?, if_true, between?_append, List.dropLast_concat, hblocks, hstatements,
      List.getLast?_concat, Option.bind_eq_bind, Option.bind_some, hcall, Part.call?,
      listed_fields hp, Option.pure_def, readerOf]
  simp only [membersOf, List.findSome?_append, List.findSome?_cons, List.findSome?_nil, hconstant,
    hnew, haccessors, hreader, Option.none_or]

end

end PredicateFile

/-- What the file of a predicate says. -/
def Predicate.code (o : Options) (p : Predicate) : Code where
  imports := (Imports.groups o.crate p).flatten.map lastSegment
  type := p.typeName
  fields := p.args.map fun a => (a.name, a.type.target)
  members := [utf8 "NAME", utf8 "NB_ARGS", utf8 "new"] ++ p.args.map Arg.name ++
    [utf8 "try_from_item"]
  constants := [(utf8 "NAME", utf8 "\"" ++ p.name ++ utf8 "\""),
    (utf8 "NB_ARGS", decimal p.arity)]
  builder := ⟨p.args.map Arg.name, p.args.map Arg.name⟩
  reader := PredicateFile.readerOf p
  text := PredicateFile.textOf p

open PredicateFile in
/-- **Code**: the file of a predicate is read without a rest. -/
theorem code?_emit {o : Options} (ho : o.IsInline) {p : Predicate} (hp : p.IsDeclarable) :
    (p.emit o).code? = some (p.code o) := by
  have hfields : (p.args.map fieldLine).mapM
      (fun l => (between? (utf8 "    ") (utf8 ",") l).bind typed?) =
        some (p.args.map fun a => (a.name, a.type.target)) :=
    Traversal.mapM_map_of_some fun a ha => typed?_fieldLine hp ha
  have hstruct : (p.emit o).structNames = [p.typeName] := (declares_emit ho hp).struct
  have hmembers : (membersOf o.modelParam p).map Member.name = (p.code o).members := by
    simp [membersOf, Predicate.code, Member.name, Function.comp_def]
  have hconstants : (membersOf o.modelParam p).filterMap Member.constant? =
      (p.code o).constants := by
    simp [membersOf, Predicate.code, Member.constant?, List.filterMap_cons, Function.comp_def]
  rw [OutputFile.code?, hstruct]
  simp only [structBlock_emit ho hp, hfields, members?_emit ho hp, findSome?_builder hp,
    findSome?_reader hp, text?_emit ho hp, uses_emit ho hp, hmembers, hconstants,
    Option.bind_eq_bind, Option.bind_some, Option.pure_def]
  rfl

end ZincBind

import ZincBind.Proofs.Declaration.Grammar

/-!
# ZincBind.Proofs.Declaration.Rejection

Why a line is turned down.  The stages of the reader come one after the other (shape, name,
arguments from left to right), and the first one that fails gives the error:

* `parse_error_cases` — an error comes from the shape, from the name or from an argument;
* `parse_eq_error_iff_shape`, `parse_eq_error_iff_name`, `parse_eq_error_iff_args` — one
  equivalence per stage;
* `rejection_classified` — the stages together, and what every error carries: a piece of the line
  that the stage it names turns down on its own.
-/

namespace ZincBind

/-- The stage an error names, given the error's text and nothing else, fails with that error. -/
def ParseError.Reproduced (e : ParseError) : Prop :=
  match e.rejection with
  | .identifier => Identifier.parse e.token = .error e
  | .type => ArgType.parse e.token = .error e
  | .argument => Arg.parse e.token = .error e
  | .predicate => Predicate.parse e.token = .error e

namespace Grammar

open Bytes Traversal

/-! ## Errors of arguments -/

/-- The name stage turns down what is no name. -/
theorem reproduced_identifier_iff {n : Bytes} :
    ParseError.Reproduced ⟨.identifier, n⟩ ↔ ¬ IsName n := by
  show Identifier.parse n = .error ⟨.identifier, n⟩ ↔ ¬ IsName n
  rw [Identifier.parse, ← isValid_iff]
  by_cases hvalid : Identifier.isValid n = true
  · simp [hvalid]
  · simp [hvalid]

/-- What an error of the argument reader carries: a piece of the argument, turned down by a stage
below the line, which does so again. -/
theorem parseArg_error {g : Bytes} {e : ParseError} (h : Arg.parse g = .error e) :
    e.token <:+: g ∧ e.Reproduced ∧ e.rejection ≠ .predicate := by
  cases parseArg_cases g with
  | inl harg =>
      obtain rfl := Except.error.inj (h.symm.trans harg)
      exact ⟨List.infix_rfl, harg, Rejection.noConfusion⟩
  | inr hcolon =>
      obtain ⟨l, r, rfl, -, -, hcase⟩ := hcolon
      cases hcase with
      | inl htype =>
          obtain ⟨hnone, herr⟩ := htype
          obtain rfl := Except.error.inj (h.symm.trans herr)
          have hleft : l <:+: l ++ byte ':' :: r := (List.prefix_append _ _).isInfix
          refine ⟨(trim_isInfix l).trans hleft, ?_, Rejection.noConfusion⟩
          simp only [ParseError.Reproduced, ArgType.parse, hnone]
      | inr hrest =>
          obtain ⟨type, -, hname⟩ := hrest
          cases hname with
          | inl hbad =>
              obtain ⟨hbad, herr⟩ := hbad
              obtain rfl := Except.error.inj (h.symm.trans herr)
              have hright : r <:+: l ++ byte ':' :: r :=
                (List.suffix_cons (byte ':') r).isInfix.trans (List.suffix_append _ _).isInfix
              exact ⟨(trim_isInfix r).trans hright, reproduced_identifier_iff.2 hbad,
                Rejection.noConfusion⟩
          | inr hok =>
              rw [hok.2] at h
              contradiction

/-! ## Errors of lines, stage by stage -/

/-- A text with a reading has one with the longest gap. -/
theorem exists_greedyReading {t : Bytes} (h : ∃ gap name body, Reading t gap name body) :
    ∃ gap name body, GreedyReading t gap name body := by
  cases hshape : Shape.ofLine? t with
  | none => exact absurd h (Shape.ofLine?_eq_none_iff.1 hshape)
  | some shape =>
      obtain ⟨gap, hgap⟩ := Shape.ofLine?_eq_some_iff.1 hshape
      exact ⟨gap, shape.name, shape.body, hgap⟩

theorem parse_of_not_reading {line t : Bytes} (ht : Stripped line t)
    (h : ¬ ∃ gap name body, Reading t gap name body) :
    Predicate.parse line = .error ⟨.predicate, t⟩ := by
  rw [← stripped_iff.1 ht] at h ⊢
  exact parse_of_ofLine?_none (Shape.ofLine?_eq_none_iff.2 h)

theorem parse_of_not_isName {line t gap name body : Bytes} (ht : Stripped line t)
    (h : GreedyReading t gap name body) (hname : ¬ IsName name) :
    Predicate.parse line = .error ⟨.identifier, name⟩ := by
  rw [parse_of_greedyReading ht h, if_neg fun hv => hname (isValid_iff.1 hv)]

/-- **Arguments**: behind a name the line fails as its first failing argument does. -/
theorem parse_eq_error_iff_args {line t gap name body : Bytes} (ht : Stripped line t)
    (h : GreedyReading t gap name body) (hname : IsName name) (e : ParseError) :
    Predicate.parse line = .error e ↔
      ∃ before piece after, pieces (byte ',') body = before ++ piece :: after ∧
        (∀ g ∈ before, ∃ a, Arg.parse g = .ok a) ∧ Arg.parse piece = .error e := by
  rw [parse_of_greedyReading ht h, if_pos (isValid_iff.2 hname), map_eq_error_iff,
    mapM_eq_error_iff]

/-- Where an error of a line comes from: its shape, its name, or one of its arguments. -/
theorem parse_error_cases {line t : Bytes} {e : ParseError} (ht : Stripped line t)
    (h : Predicate.parse line = .error e) :
    ((¬ ∃ gap name body, Reading t gap name body) ∧ e = ⟨.predicate, t⟩) ∨
      ∃ gap name body, GreedyReading t gap name body ∧
        ((¬ IsName name ∧ e = ⟨.identifier, name⟩) ∨
          (IsName name ∧ ∃ piece ∈ pieces (byte ',') body, Arg.parse piece = .error e)) := by
  by_cases hread : ∃ gap name body, Reading t gap name body
  · obtain ⟨gap, name, body, hgreedy⟩ := exists_greedyReading hread
    refine Or.inr ⟨gap, name, body, hgreedy, ?_⟩
    by_cases hname : IsName name
    · obtain ⟨before, piece, after, hsplit, -, hpiece⟩ :=
        (parse_eq_error_iff_args ht hgreedy hname e).1 h
      have hmem : piece ∈ pieces (byte ',') body := by
        rw [hsplit]
        exact List.mem_append_right before List.mem_cons_self
      exact Or.inr ⟨hname, piece, hmem, hpiece⟩
    · have herr := parse_of_not_isName ht hgreedy hname
      exact Or.inl ⟨hname, Except.error.inj (h.symm.trans herr)⟩
  · have herr := parse_of_not_reading ht hread
    exact Or.inl ⟨hread, Except.error.inj (h.symm.trans herr)⟩

/-- **Shape**: the line itself is turned down exactly when it has no reading. -/
theorem parse_eq_error_iff_shape {line t : Bytes} (ht : Stripped line t) :
    Predicate.parse line = .error ⟨.predicate, t⟩ ↔
      ¬ ∃ gap name body, Reading t gap name body := by
  refine ⟨fun h => ?_, parse_of_not_reading ht⟩
  cases parse_error_cases ht h with
  | inl hshape => exact hshape.1
  | inr hlater =>
      obtain ⟨gap, name, body, -, hcase⟩ := hlater
      cases hcase with
      | inl hbad => exact Rejection.noConfusion (ParseError.mk.inj hbad.2).1
      | inr hargs =>
          obtain ⟨-, piece, -, hpiece⟩ := hargs
          exact absurd rfl (parseArg_error hpiece).2.2

/-- **Name**: the name is turned down exactly when it is none. -/
theorem parse_eq_error_iff_name {line t gap name body : Bytes} (ht : Stripped line t)
    (h : GreedyReading t gap name body) :
    Predicate.parse line = .error ⟨.identifier, name⟩ ↔ ¬ IsName name := by
  refine ⟨fun herr hname => ?_, parse_of_not_isName ht h⟩
  -- the error would be that of an argument, and those are not about names
  obtain ⟨before, piece, after, -, -, hpiece⟩ := (parse_eq_error_iff_args ht h hname _).1 herr
  exact reproduced_identifier_iff.1 (parseArg_error hpiece).2.1 hname

/-! ## What an error carries -/

/-- A line without its blank end has none left to lose. -/
theorem Stripped.again {line t : Bytes} (h : Stripped line t) : Stripped t t := by
  obtain ⟨tail, -, -, hlast⟩ := h
  exact ⟨[], (List.append_nil t).symm, by simp, hlast⟩

theorem Stripped.isInfix {line t : Bytes} (h : Stripped line t) : t <:+: line := by
  obtain ⟨tail, rfl, -, -⟩ := h
  exact (List.prefix_append t tail).isInfix

theorem Reading.name_isInfix {t gap name body : Bytes} (h : Reading t gap name body) :
    name <:+: t := by
  rw [h.text, List.append_assoc, List.append_assoc]
  exact List.infix_append _ name _

theorem Reading.body_isInfix {t gap name body : Bytes} (h : Reading t gap name body) :
    body <:+: t := by
  rw [h.text]
  exact List.infix_append _ body _

/-- **Witness**: the text of an error stands in the line, and the stage it names turns that text
down on its own. -/
theorem token_infix_and_reproduced {line : Bytes} {e : ParseError}
    (h : Predicate.parse line = .error e) : e.token <:+: line ∧ e.Reproduced := by
  have ht : Stripped line (line.stripEnd isTail) := stripped_iff.2 rfl
  cases parse_error_cases ht h with
  | inl hshape =>
      obtain ⟨hread, rfl⟩ := hshape
      exact ⟨ht.isInfix, parse_of_not_reading ht.again hread⟩
  | inr hlater =>
      obtain ⟨gap, name, body, hgreedy, hcase⟩ := hlater
      cases hcase with
      | inl hbad =>
          obtain ⟨hname, rfl⟩ := hbad
          exact ⟨hgreedy.name_isInfix.trans ht.isInfix, reproduced_identifier_iff.2 hname⟩
      | inr hargs =>
          obtain ⟨-, piece, hmem, hpiece⟩ := hargs
          obtain ⟨htoken, hagain, -⟩ := parseArg_error hpiece
          have hbody : piece <:+: line :=
            (infix_of_mem_pieces hmem).trans (hgreedy.body_isInfix.trans ht.isInfix)
          exact ⟨htoken.trans hbody, hagain⟩

/-- **Rejections**: let `t` be the line without its blank end.  The line is turned down as a whole
exactly when `t` has no reading; otherwise, in the reading with the longest gap, the name is turned
down exactly when it is no name; otherwise the error, if any, is that of the leftmost argument that
has one.  Every error carries a piece of the line that its stage turns down on its own. -/
theorem rejection_classified (line : Bytes) :
    ∃ t, Stripped line t ∧
      (Predicate.parse line = .error ⟨.predicate, t⟩ ↔
        ¬ ∃ gap name body, Reading t gap name body) ∧
      ((∃ gap name body, Reading t gap name body) →
        ∃ gap name body, GreedyReading t gap name body) ∧
      (∀ gap name body, GreedyReading t gap name body →
        (Predicate.parse line = .error ⟨.identifier, name⟩ ↔ ¬ IsName name) ∧
        (IsName name → ∀ e, Predicate.parse line = .error e ↔
          ∃ before piece after, pieces (byte ',') body = before ++ piece :: after ∧
            (∀ g ∈ before, ∃ a, Arg.parse g = .ok a) ∧ Arg.parse piece = .error e)) ∧
      ∀ e, Predicate.parse line = .error e → e.token <:+: line ∧ e.Reproduced := by
  have ht : Stripped line (line.stripEnd isTail) := stripped_iff.2 rfl
  exact ⟨_, ht, parse_eq_error_iff_shape ht, exists_greedyReading,
    fun gap name body h => ⟨parse_eq_error_iff_name ht h, parse_eq_error_iff_args ht h⟩,
    fun e => token_infix_and_reproduced⟩

end Grammar

end ZincBind

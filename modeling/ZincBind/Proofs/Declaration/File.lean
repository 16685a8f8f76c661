import ZincBind.Declaration.File
import ZincBind.Proofs.Declaration.Grammar

/-!
# ZincBind.Proofs.Declaration.File

A declaration file line by line.  Skipped lines leave no trace in the result, so a file is accepted
exactly when each of its other lines is, and the result is what those lines give in order
(`parse_eq_ok_iff`).
-/

namespace ZincBind

namespace DeclarationFile

open Bytes Grammar Traversal

/-- The lines of a file that are declarations. -/
def declarations (text : Bytes) : List Bytes :=
  (pieces (byte '\n') text).filter fun line => !isSkipped line

/-- One line: skipped, accepted in front of the rest, or the end of the run. -/
theorem parseLines_cons (n : Nat) (line : Bytes) (rest : List Bytes) :
    parseLines n (line :: rest) =
      if isSkipped line then parseLines (n + 1) rest
      else
        match Predicate.parse line with
        | .error cause => .error ⟨n, line.stripEnd (· == byte '\r'), cause⟩
        | .ok p => (parseLines (n + 1) rest).map (p :: ·) := rfl

/-- **Accepted lines**: whatever the numbering, a run over lines succeeds exactly when every line
that is not skipped is accepted. -/
theorem parseLines_eq_ok_iff {n : Nat} {lines : List Bytes} {ps : List Predicate} :
    parseLines n lines = .ok ps ↔
      List.Forall₂ (fun line p => Predicate.parse line = .ok p)
        (lines.filter fun line => !isSkipped line) ps := by
  induction lines generalizing n ps with
  | nil =>
      rw [List.filter_nil, List.forall₂_nil_left_iff]
      exact ⟨fun h => (Except.ok.inj h).symm, fun h => h ▸ rfl⟩
  | cons line rest ih =>
      rw [parseLines_cons]
      by_cases hskip : isSkipped line = true
      · rw [if_pos hskip, ih, List.filter_cons_of_neg (by simp [hskip])]
      · rw [if_neg hskip, List.filter_cons_of_pos (by simp [hskip]), List.forall₂_cons_left_iff]
        cases hline : Predicate.parse line with
        | error cause => simp
        | ok p =>
            simp only [map_eq_ok_iff, ih, Except.ok.injEq]
            constructor
            · intro h
              obtain ⟨ps', hps, rfl⟩ := h
              exact ⟨p, ps', rfl, hps, rfl⟩
            · intro h
              obtain ⟨_, ps', rfl, hps, rfl⟩ := h
              exact ⟨ps', hps, rfl⟩

/-- **Accepted files**: the predicates of a file are those of its declaration lines in order. -/
theorem parse_eq_ok_iff {text : Bytes} {ps : List Predicate} :
    parse text = .ok ps ↔
      List.Forall₂ (fun line p => Predicate.parse line = .ok p) (declarations text) ps :=
  parseLines_eq_ok_iff

/-- Every predicate of an accepted file comes from a line of its own. -/
theorem exists_line_of_mem {text : Bytes} {ps : List Predicate} (h : parse text = .ok ps)
    {p : Predicate} (hp : p ∈ ps) : ∃ line, Predicate.parse line = .ok p := by
  have hlines : List.Forall₂ (fun p line => Predicate.parse line = .ok p) ps (declarations text) :=
    (parse_eq_ok_iff.1 h).flip
  have hpairs : List.Forall₂ (fun p line => (∃ line, Predicate.parse line = .ok p) ∧
      Predicate.parse line = .ok p) ps (declarations text) :=
    hlines.imp fun p line hline => ⟨⟨line, hline⟩, hline⟩
  exact ((List.forall₂_and_left ps (declarations text)).1 hpairs).1 p hp

end DeclarationFile

end ZincBind

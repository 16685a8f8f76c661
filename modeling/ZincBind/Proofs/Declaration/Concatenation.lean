import ZincBind.Proofs.Declaration.File

/-!
# ZincBind.Proofs.Declaration.Concatenation

Declaration files one after the other.  Reading a text that is made of two, with a line feed between
them, is reading the first and then the second, whose errors move down by the lines of the first
(`parse_append_feed`).  With the readings of texts on a single line (`parse_of_isLine`) this determines
every file (`parse_concatenated`), and it extends to any number of texts:

* `parse_joined_of_ok` — if all are accepted, their predicates stand one after the other;
* `parse_joined_of_error` — otherwise the first that is rejected decides, at its own line below the
  lines of the texts before it.
-/

namespace ZincBind

/-- The error of a line that stands `n` lines further down. -/
def LineError.below (n : Nat) (e : LineError) : LineError := { e with line := n + e.line }

@[simp] theorem LineError.below_zero (e : LineError) : e.below 0 = e := by
  simp [below]

@[simp] theorem LineError.below_below (m n : Nat) (e : LineError) :
    (e.below n).below m = e.below (m + n) := by
  simp [below, Nat.add_assoc]

namespace DeclarationFile

open Bytes

/-- The number of lines of a text: one more than it has line feeds. -/
def lineCount (text : Bytes) : Nat := text.count (byte '\n') + 1

/-- The number of lines of texts together. -/
def lineCounts : List Bytes → Nat
  | [] => 0
  | t :: ts => lineCount t + lineCounts ts

/-! ## Lines -/

/-- Counting the lines from a later number on moves the error and nothing else. -/
theorem parseLines_add (k n : Nat) (lines : List Bytes) :
    parseLines (k + n) lines = (parseLines n lines).mapError (LineError.below k) := by
  induction lines generalizing n with
  | nil => rfl
  | cons line rest ih =>
      rw [parseLines_cons, parseLines_cons, Nat.add_assoc, ih (n + 1)]
      by_cases hskip : isSkipped line = true
      · rw [if_pos hskip, if_pos hskip]
      · rw [if_neg hskip, if_neg hskip]
        cases Predicate.parse line with
        | error cause => rfl
        | ok p => cases parseLines (n + 1) rest <;> rfl

/-- Lines are read up to any point and then from there on. -/
theorem parseLines_append (n : Nat) (front back : List Bytes) :
    parseLines n (front ++ back) = do
      let ps ← parseLines n front
      let qs ← parseLines (n + front.length) back
      return ps ++ qs := by
  induction front generalizing n with
  | nil =>
      rw [List.nil_append, List.length_nil, Nat.add_zero]
      cases parseLines n back <;> rfl
  | cons line rest ih =>
      have hcount : n + (line :: rest).length = n + 1 + rest.length := by
        rw [List.length_cons]
        omega
      rw [List.cons_append, parseLines_cons, parseLines_cons, hcount, ih]
      by_cases hskip : isSkipped line = true
      · simp only [hskip, if_true]
      · rw [if_neg hskip, if_neg hskip]
        cases Predicate.parse line with
        | error cause => rfl
        | ok p =>
            cases parseLines (n + 1) rest with
            | error e => rfl
            | ok ps => cases parseLines (n + 1 + rest.length) back <;> rfl

/-! ## Texts -/

/-- **Two texts**: reading goes on with the second where the first ends. -/
theorem parse_append_feed (a b : Bytes) :
    parse (a ++ byte '\n' :: b) = do
      let ps ← parse a
      let qs ← (parse b).mapError (LineError.below (lineCount a))
      return ps ++ qs := by
  have hcount : 1 + (pieces (byte '\n') a).length = lineCount a + 1 := by
    rw [length_pieces, lineCount]
    omega
  rw [parse, pieces_append_cons, parseLines_append, hcount, parseLines_add, ← parse, ← parse]

/-- The same in front of any number of texts, also none. -/
theorem parse_joined_cons (t : Bytes) (ts : List Bytes) :
    parse (joined (utf8 "\n") (t :: ts)) = do
      let ps ← parse t
      let qs ← (parse (joined (utf8 "\n") ts)).mapError (LineError.below (lineCount t))
      return ps ++ qs := by
  cases ts with
  | nil =>
      have hempty : parse (joined (utf8 "\n") []) = .ok [] := by rfl
      rw [hempty, joined_singleton]
      cases parse t with
      | error e => rfl
      | ok ps => exact congrArg Except.ok (List.append_nil ps).symm
  | cons u us =>
      have hfeed : utf8 "\n" = [byte '\n'] := rfl
      rw [joined_cons_cons, hfeed, List.append_assoc, List.singleton_append, parse_append_feed]

/-- **Accepted texts**: the predicates of the joined text are those of the texts in order. -/
theorem parse_joined_of_ok {ts : List Bytes} {pss : List (List Predicate)}
    (h : List.Forall₂ (fun t ps => parse t = .ok ps) ts pss) :
    parse (joined (utf8 "\n") ts) = .ok pss.flatten := by
  induction h with
  | nil => rfl
  | cons ht _ ih =>
      rw [parse_joined_cons, ht, ih]
      rfl

/-- **Rejected texts**: the joined text fails where the first rejected text does, below the lines
of the texts before it. -/
theorem parse_joined_of_error {before after : List Bytes} {t : Bytes} {e : LineError}
    (hbefore : ∀ u ∈ before, ∃ ps, parse u = .ok ps) (ht : parse t = .error e) :
    parse (joined (utf8 "\n") (before ++ t :: after)) =
      .error (e.below (lineCounts before)) := by
  induction before with
  | nil =>
      rw [List.nil_append, parse_joined_cons, ht, lineCounts, LineError.below_zero]
      rfl
  | cons u us ih =>
      obtain ⟨ps, hu⟩ := hbefore u List.mem_cons_self
      have hus := ih fun v hv => hbefore v (List.mem_cons_of_mem u hv)
      rw [List.cons_append, parse_joined_cons, hu, hus, lineCounts, ← LineError.below_below]
      rfl

/-! ## Single lines -/

/-- A line without a declaration: it begins with a percent sign or has blank characters only. A
byte that belongs to no character is not blank. -/
def IsSilent (line : Bytes) : Prop :=
  (∃ rest, line = utf8 "%" ++ rest) ∨
    ∃ s : String, (∀ c ∈ s.toList, Glyph.isBlankChar c = true) ∧ line = utf8 s

theorem isSkipped_iff {line : Bytes} : isSkipped line = true ↔ IsSilent line := by
  have hpercent : (line.head? == some (byte '%')) = true ↔ ∃ rest, line = utf8 "%" ++ rest := by
    have hsign : utf8 "%" = [byte '%'] := rfl
    cases line with
    | nil => simp [hsign]
    | cons b bs => simp [hsign]
  rw [isSkipped, Bool.or_eq_true, hpercent, isBlank_iff, IsSilent]

/-- A text on one line is read as that line, the first. -/
theorem parse_of_isLine {line : Bytes} (h : byte '\n' ∉ line) :
    parse line = parseLines 1 [line] := by
  rw [parse, pieces_of_not_mem h]

/-- **Concatenation**: reading turns a line feed between two texts into one reading after the other.
If the first text is rejected, so is the whole, with the same error; otherwise, if the second is
rejected, so is the whole, with the same error further down by the lines of the first; otherwise the
predicates of the first are followed by those of the second.  A text without line feeds gives no
predicate if it is silent, and otherwise what its only line gives. -/
theorem parse_concatenated :
    (∀ a b : Bytes,
      parse (a ++ utf8 "\n" ++ b) =
        match parse a, parse b with
        | .error e, _ => .error e
        | .ok _, .error e => .error { e with line := a.count (byte '\n') + 1 + e.line }
        | .ok ps, .ok qs => .ok (ps ++ qs)) ∧
      ∀ line : Bytes, byte '\n' ∉ line →
        (IsSilent line → parse line = .ok []) ∧
        (¬ IsSilent line →
          parse line =
            match Predicate.parse line with
            | .ok p => .ok [p]
            | .error cause => .error ⟨1, line.stripEnd (· == byte '\r'), cause⟩) := by
  refine ⟨fun a b => ?_, fun line hline => ⟨fun hsilent => ?_, fun hspoken => ?_⟩⟩
  · have hfeed : a ++ utf8 "\n" ++ b = a ++ byte '\n' :: b := by
      rw [List.append_assoc]
      rfl
    rw [hfeed, parse_append_feed]
    cases parse a with
    | error e => rfl
    | ok ps => cases parse b <;> rfl
  · rw [parse_of_isLine hline, parseLines_cons, if_pos (isSkipped_iff.2 hsilent)]
    rfl
  · rw [parse_of_isLine hline, parseLines_cons, if_neg (mt isSkipped_iff.1 hspoken)]
    cases Predicate.parse line <;> rfl

/-- The predicate of `predicate int_eq(int: a)`. -/
def intEq : Predicate :=
  ⟨utf8 "int_eq", [⟨ArgType.ofTarget "int" "Int" "types::Int" "int_from_expr", utf8 "a"⟩]⟩

/-- The second line of the second text is the fourth of the whole.  Blanks alone are silent; a byte
that belongs to no character is not. -/
theorem second_text_rejected :
    parse (utf8 "% eq\npredicate int_eq(int: a)") = .ok [intEq] ∧
      parse (utf8 "\npredicate int_ne(int)") =
        .error ⟨2, utf8 "predicate int_ne(int)", ⟨.argument, utf8 "int"⟩⟩ ∧
      parse (utf8 "% eq\npredicate int_eq(int: a)" ++ utf8 "\n" ++
          utf8 "\npredicate int_ne(int)") =
        .error ⟨4, utf8 "predicate int_ne(int)", ⟨.argument, utf8 "int"⟩⟩ ∧
      parse (utf8 "\t\u2003\r") = .ok [] ∧
      parse [byte ' ', 0xFF] = .error ⟨1, [byte ' ', 0xFF], ⟨.predicate, [byte ' ', 0xFF]⟩⟩ := by
  have hfirst : parse (utf8 "% eq\npredicate int_eq(int: a)") = .ok [intEq] := by rfl
  have hsecond : parse (utf8 "\npredicate int_ne(int)") =
      .error ⟨2, utf8 "predicate int_ne(int)", ⟨.argument, utf8 "int"⟩⟩ := by rfl
  have hblank : IsSilent (utf8 "\t\u2003\r") := by
    have hall : "\t\u2003\r".toList.all Glyph.isBlankChar = true := by decide
    exact Or.inr ⟨"\t\u2003\r", List.all_eq_true.1 hall, rfl⟩
  have hstray : ¬ IsSilent [byte ' ', 0xFF] := by
    rw [← isSkipped_iff]
    decide
  obtain ⟨hjoin, hline⟩ := parse_concatenated
  refine ⟨hfirst, hsecond, ?_, (hline _ (by decide)).1 hblank, ?_⟩
  · rw [hjoin, hfirst, hsecond]
    rfl
  · rw [(hline _ (by decide)).2 hstray]
    rfl

end DeclarationFile

end ZincBind

import ZincBind.Proofs.Declaration.Concatenation

/-!
# ZincBind.Proofs.Declaration.LineEndings

Line feeds with and without carriage returns.  Carriage returns at the end of a line are tail to the
declaration in it, blank to the test for blank lines, and left out of the error that quotes it.  So
a line counts for no more than what is left when they are stripped:

* `isSkipped_stripReturns`, `parse_stripReturns` — one line;
* `parseLines_map_stripReturns` — a run over lines.

A text and the text with carriage returns in front of its line feeds have the same lines after
stripping (`map_stripReturns_pieces`), hence the same outcome (`parse_withReturns`).
-/

namespace ZincBind

namespace Bytes

/-- The text with a carriage return in front of every line feed. -/
def withReturns (text : Bytes) : Bytes :=
  text.flatMap fun b => if b = byte '\n' then utf8 "\r\n" else [b]

/-- A line without the carriage returns at its end. -/
def stripReturns (line : Bytes) : Bytes := line.stripEnd (· == byte '\r')

/-- A line is its stripped form, followed by carriage returns. -/
theorem exists_returns (line : Bytes) :
    ∃ returns : Bytes, line = line.stripReturns ++ returns ∧ ∀ b ∈ returns, b = byte '\r' := by
  obtain ⟨returns, hline, hreturns, -⟩ := stripEnd_eq_iff.1 (Eq.refl line.stripReturns)
  exact ⟨returns, hline, by simpa using hreturns⟩

/-- One carriage return more. -/
theorem stripReturns_concat (line : Bytes) :
    stripReturns (line ++ [byte '\r']) = line.stripReturns :=
  stripEnd_append (by simp) line

/-! ## Blank lines -/

theorem isBlank_concat_return (line : Bytes) :
    (line ++ [byte '\r']).isBlank = line.isBlank := by
  have hascii : (byte '\r').toNat < 128 := by decide
  have hreturn : String.utf8EncodeChar '\r' = [byte '\r'] := by decide
  rw [Bool.eq_iff_iff, Bytes.isBlank_iff, Bytes.isBlank_iff]
  constructor
  · rintro ⟨s, hs, hline⟩
    rcases List.eq_nil_or_concat' s.toList with hnil | ⟨cs, c, hcs⟩
    · simp [utf8, hnil] at hline
    · rw [hcs] at hs
      rw [utf8, hcs, List.flatMap_append, List.flatMap_singleton] at hline
      -- the last character ends in the carriage return, so it is the carriage return
      have hmem : byte '\r' ∈ String.utf8EncodeChar c := by
        refine List.mem_of_getLast? ?_
        have hlast := congrArg List.getLast? hline
        rw [List.getLast?_concat, List.getLast?_append_of_ne_nil _
          (Glyph.utf8EncodeChar_ne_nil c)] at hlast
        exact hlast.symm
      obtain rfl : c = '\r' := eq_asciiChar_of_mem_utf8EncodeChar hmem hascii
      rw [hreturn] at hline
      refine ⟨String.ofList cs, ?_, ?_⟩
      · intro c hc
        rw [String.toList_ofList] at hc
        exact hs c (List.mem_append_left _ hc)
      · rw [utf8, String.toList_ofList]
        exact List.append_cancel_right hline
  · rintro ⟨s, hs, rfl⟩
    refine ⟨String.ofList (s.toList ++ ['\r']), ?_, ?_⟩
    · have hblank : Glyph.isBlankChar '\r' = true := by decide
      simpa [or_imp, forall_and, hblank] using hs
    · rw [utf8, utf8, String.toList_ofList, List.flatMap_append, List.flatMap_singleton, hreturn]

theorem isBlank_append_returns {returns : Bytes} (h : ∀ b ∈ returns, b = byte '\r')
    (line : Bytes) : (line ++ returns).isBlank = line.isBlank := by
  induction returns generalizing line with
  | nil => rw [List.append_nil]
  | cons b returns ih =>
      obtain ⟨rfl, hreturns⟩ := List.forall_mem_cons.1 h
      rw [List.append_cons, ih hreturns, isBlank_concat_return]

/-! ## The lines of a text -/

theorem withReturns_of_isLine {line : Bytes} (h : byte '\n' ∉ line) : withReturns line = line := by
  have hbyte : ∀ b ∈ line, (if b = byte '\n' then utf8 "\r\n" else [b]) = [b] := by
    intro b hb
    exact if_neg (ne_of_mem_of_not_mem hb h)
  rw [withReturns, List.flatMap_congr hbyte, List.flatMap_singleton']

theorem withReturns_append_feed {line : Bytes} (h : byte '\n' ∉ line) (rest : Bytes) :
    withReturns (line ++ byte '\n' :: rest) =
      (line ++ [byte '\r']) ++ byte '\n' :: withReturns rest := by
  rw [withReturns, List.flatMap_append, ← withReturns, withReturns_of_isLine h, List.append_assoc]
  rfl

/-- Lines joined by line feeds come back out of the text with carriage returns, but for the
carriage returns: all lines except the last get one. -/
theorem map_stripReturns_pieces_joined {lines : List Bytes} (hne : lines ≠ [])
    (h : ∀ l ∈ lines, byte '\n' ∉ l) :
    (pieces (byte '\n') (withReturns (joined [byte '\n'] lines))).map stripReturns =
      lines.map stripReturns := by
  induction lines with
  | nil => contradiction
  | cons line lines ih =>
      obtain ⟨hline, hlines⟩ := List.forall_mem_cons.1 h
      cases lines with
      | nil => rw [joined_singleton, withReturns_of_isLine hline, pieces_of_not_mem hline]
      | cons next rest =>
          have hreturned : byte '\n' ∉ line ++ [byte '\r'] := by simp [hline]; decide
          rw [joined_cons_cons, List.append_assoc, List.singleton_append,
            withReturns_append_feed hline, pieces_append_cons, pieces_of_not_mem hreturned,
            List.map_append, ih (List.cons_ne_nil next rest) hlines, List.map_singleton,
            stripReturns_concat, List.singleton_append, ← List.map_cons]

/-- A text and the text with carriage returns have the same lines after stripping. -/
theorem map_stripReturns_pieces (text : Bytes) :
    (pieces (byte '\n') (withReturns text)).map stripReturns =
      (pieces (byte '\n') text).map stripReturns := by
  have hlines := map_stripReturns_pieces_joined (pieces_ne_nil (byte '\n') text)
    fun _ => not_mem_of_mem_pieces
  rwa [joined_pieces] at hlines

end Bytes

namespace DeclarationFile

open Bytes

/-! ## One line -/

theorem isSkipped_stripReturns (line : Bytes) : isSkipped line.stripReturns = isSkipped line := by
  obtain ⟨returns, hline, hreturns⟩ := exists_returns line
  have hblank : line.isBlank = line.stripReturns.isBlank := by
    conv_lhs => rw [hline]
    exact isBlank_append_returns hreturns line.stripReturns
  rw [isSkipped, isSkipped, hblank]
  cases hstrip : line.stripReturns with
  | nil =>
      -- nothing is left of the line: both are blank
      have hempty : isBlank [] = true := rfl
      rw [hempty, Bool.or_true, Bool.or_true]
  | cons b bs =>
      rw [hstrip, List.cons_append] at hline
      rw [hline, List.head?_cons, List.head?_cons]

theorem parse_stripReturns (line : Bytes) :
    Predicate.parse line.stripReturns = Predicate.parse line := by
  obtain ⟨returns, hline, hreturns⟩ := exists_returns line
  have htail : ∀ b ∈ returns, isTail b = true := by
    intro b hb
    rw [hreturns b hb]
    decide
  have hstrip : line.stripReturns.stripEnd isTail = line.stripEnd isTail := by
    conv_rhs => rw [hline]
    exact (stripEnd_append htail line.stripReturns).symm
  unfold Predicate.parse
  rw [hstrip]

/-- The error of a line quotes it without them in any case. -/
theorem stripReturns_stripReturns (line : Bytes) :
    line.stripReturns.stripReturns = line.stripReturns :=
  List.rdropWhile_idempotent _ line

/-! ## A run over lines -/

/-- **Stripped lines**: a run over lines is a run over what is left of them. -/
theorem parseLines_map_stripReturns (n : Nat) (lines : List Bytes) :
    parseLines n (lines.map stripReturns) = parseLines n lines := by
  induction lines generalizing n with
  | nil => rfl
  | cons line rest ih =>
      rw [List.map_cons, parseLines_cons, parseLines_cons, isSkipped_stripReturns,
        parse_stripReturns, ih (n + 1), ← stripReturns, ← stripReturns, stripReturns_stripReturns]

/-- **Line endings**: whether lines end in line feeds alone or in carriage returns and line feeds, a
text has the same outcome: the same predicates, or the same error, with the number of the line, the
line as quoted, the stage that rejects it and the piece of text that it rejects. -/
theorem parse_withReturns (text : Bytes) : parse (withReturns text) = parse text := by
  calc parse (withReturns text)
      = parseLines 1 ((pieces (byte '\n') (withReturns text)).map stripReturns) :=
        (parseLines_map_stripReturns 1 _).symm
    _ = parseLines 1 ((pieces (byte '\n') text).map stripReturns) := by
        rw [map_stripReturns_pieces]
    _ = parse text := parseLines_map_stripReturns 1 _

/-- A rejected line that ends in carriage returns already. -/
example : parse (withReturns (utf8 "% x\n\npredicate p(int: 1)\r\r\n")) =
    .error ⟨3, utf8 "predicate p(int: 1)", ⟨.identifier, utf8 "1"⟩⟩ := by rfl

end DeclarationFile

end ZincBind

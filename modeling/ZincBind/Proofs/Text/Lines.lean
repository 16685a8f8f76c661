import Mathlib.Data.List.SplitBy
import ZincBind.Declaration.Identifier
import ZincBind.Proofs.Text.Blanks
import ZincBind.Proofs.Text.Separators

/-!
# ZincBind.Proofs.Text.Lines

Text line by line.  A text made of lines without line feeds is cut into these lines again
(`pieces_unlines`), and a line is read by how it begins and ends (`between?`, `readings`), a block
by the line that opens it and the brace that closes it (`bodyOf`, `blockOf`).  Inside a line, lists
with commas and numerals are read back (`listed_joined`, `numeral?_decimal`).

What a literal begins with and which bytes it holds is checked on its characters, which a string
literal has at hand, instead of its bytes, which have to be encoded first: `isLine_literal` and
`after?_literal` take the characters as a side condition.
-/

namespace ZincBind

namespace Bytes

/-! ## Text without line feeds -/

/-- A text on one line. -/
def IsLine (bs : Bytes) : Prop := byte '\n' ∉ bs

@[simp] theorem isLine_nil : IsLine [] := List.not_mem_nil

@[simp] theorem isLine_append_iff {l r : Bytes} : IsLine (l ++ r) ↔ IsLine l ∧ IsLine r := by
  rw [IsLine, List.mem_append, not_or, ← IsLine, ← IsLine]

/-- Lines each of which is of a kind. -/
def AllLines (kind : Bytes → Prop) (ls : List Bytes) : Prop := ∀ l ∈ ls, kind l

section

variable {kind : Bytes → Prop}

instance [DecidablePred kind] (ls : List Bytes) : Decidable (AllLines kind ls) :=
  inferInstanceAs (Decidable (∀ l ∈ ls, kind l))

@[simp] theorem allLines_nil : AllLines kind [] := List.forall_mem_nil kind

@[simp] theorem allLines_cons_iff {l : Bytes} {ls : List Bytes} :
    AllLines kind (l :: ls) ↔ kind l ∧ AllLines kind ls := List.forall_mem_cons

@[simp] theorem allLines_append_iff {ls ms : List Bytes} :
    AllLines kind (ls ++ ms) ↔ AllLines kind ls ∧ AllLines kind ms := List.forall_mem_append

@[simp] theorem allLines_map_iff {α : Type} {f : α → Bytes} {xs : List α} :
    AllLines kind (xs.map f) ↔ ∀ x ∈ xs, kind (f x) := List.forall_mem_map

@[simp] theorem allLines_flatMap_iff {α : Type} {f : α → List Bytes} {xs : List α} :
    AllLines kind (xs.flatMap f) ↔ ∀ x ∈ xs, AllLines kind (f x) := List.forall_mem_flatMap

end

/-- Texts on one line each. -/
abbrev AreLines (ls : List Bytes) : Prop := AllLines IsLine ls

theorem isLine_literal {s : String} (h : ∃ cs, s = String.ofList cs ∧ '\n' ∉ cs) :
    IsLine (utf8 s) := by
  obtain ⟨cs, rfl, hcs⟩ := h
  intro hmem
  have hchar := asciiChar_mem_of_mem_utf8 hmem (by decide)
  rw [String.toList_ofList] at hchar
  exact hcs hchar

theorem isLine_joined {sep : Bytes} {ps : List Bytes} (hsep : IsLine sep) (h : AreLines ps) :
    IsLine (joined sep ps) := by
  intro hmem
  cases mem_of_mem_joined hmem with
  | inl hmem => exact hsep hmem
  | inr hmem =>
      obtain ⟨p, hp, hmem⟩ := hmem
      exact h p hp hmem

/-- The digits of a numeral are bytes of their own. -/
theorem digit_of_mem_toDigits {n : Nat} {c : Char} (h : c ∈ Nat.toDigits 10 n) :
    (byte c).toNat = c.toNat ∧ 48 ≤ c.toNat ∧ c.toNat ≤ 57 := by
  have hdigit := Nat.isDigit_of_mem_toDigits (by decide) (by decide) h
  simp only [Char.isDigit, Bool.and_eq_true, decide_eq_true_eq, ge_iff_le, UInt32.le_iff_toNat_le]
    at hdigit
  have hlow : 48 ≤ c.toNat := hdigit.1
  have hhigh : c.toNat ≤ 57 := hdigit.2
  rw [byte, UInt8.toNat_ofNat_of_lt' (Nat.lt_of_le_of_lt hhigh (by decide))]
  exact ⟨rfl, hlow, hhigh⟩

theorem isLine_decimal (n : Nat) : IsLine (decimal n) := by
  intro hmem
  obtain ⟨c, hc, hbyte⟩ := List.mem_map.1 hmem
  obtain ⟨heq, hlow, -⟩ := digit_of_mem_toDigits hc
  have hfeed : (byte '\n').toNat = 10 := by decide
  rw [hbyte, hfeed] at heq
  omega

/-- Cut at its line feeds, a text that begins with lines falls into them and what follows. -/
theorem pieces_unlines_append {ls : List Bytes} (h : AreLines ls) (rest : Bytes) :
    pieces (byte '\n') (unlines ls ++ rest) = ls ++ pieces (byte '\n') rest := by
  induction ls with
  | nil => rfl
  | cons l ls ih =>
      obtain ⟨hl, hls⟩ := allLines_cons_iff.1 h
      rw [unlines_cons, List.append_assoc, List.cons_append, pieces_append_cons,
        pieces_of_not_mem hl, ih hls]
      rfl

/-- A text made of lines falls into them, with nothing after the last. -/
theorem pieces_unlines {ls : List Bytes} (h : AreLines ls) :
    pieces (byte '\n') (unlines ls) = ls ++ [[]] := by
  simpa using pieces_unlines_append h []

/-! ## How a line begins -/

/-- Whether two texts differ before either of them ends. -/
def clashes : List Char → List Char → Bool
  | c :: cs, d :: ds => c != d || clashes cs ds
  | _, _ => false

/-- Texts that clash are no beginnings of each other, whatever follows them: the first difference
is between two characters, and a character is read back from its bytes. -/
theorem after?_of_clashes {cs ds : List Char} (h : clashes cs ds = true) (start rest : Bytes) :
    after? (utf8 (String.ofList cs) ++ start) (utf8 (String.ofList ds) ++ rest) = none := by
  induction cs generalizing ds with
  | nil => cases ds <;> simp [clashes] at h
  | cons c cs ih =>
      cases ds with
      | nil => simp [clashes] at h
      | cons d ds =>
          refine Option.eq_none_iff_forall_ne_some.2 fun tail htail => ?_
          rw [after?_eq_some_iff, utf8_ofList_cons, utf8_ofList_cons] at htail
          simp only [List.append_assoc] at htail
          have hfront := congrArg Glyph.front? htail
          rw [Glyph.front?_utf8EncodeChar_append, Glyph.front?_utf8EncodeChar_append,
            Option.some.injEq] at hfront
          subst hfront
          have hclash : clashes cs ds = true := by simpa [clashes] using h
          have hrest :
              utf8 (String.ofList ds) ++ rest = utf8 (String.ofList cs) ++ start ++ tail := by
            rw [List.append_assoc]
            exact List.append_cancel_left htail
          rw [← after?_eq_some_iff, ih hclash] at hrest
          contradiction

/-- Two literals whose characters clash. -/
inductive Clash (s t : String) : Prop
  | intro (cs ds : List Char) (left : s = String.ofList cs) (right : t = String.ofList ds)
      (clashes : clashes cs ds = true)

theorem after?_literal {s t : String} (h : Clash s t) (rest : Bytes) :
    after? (utf8 s) (utf8 t ++ rest) = none := by
  obtain ⟨cs, ds, rfl, rfl, hclash⟩ := h
  simpa using after?_of_clashes hclash [] rest

theorem literal_append_ne {s t : String} (h : Clash s t) (l r : Bytes) :
    utf8 s ++ l ≠ utf8 t ++ r := by
  intro heq
  have hnone := after?_literal h r
  rw [← heq, after?_eq_some_iff.2 rfl] at hnone
  contradiction

theorem literal_ne_append {s t : String} (h : Clash s t) (r : Bytes) :
    utf8 s ≠ utf8 t ++ r := by
  simpa using literal_append_ne h [] r

theorem literal_ne {s t : String} (h : Clash s t) : utf8 s ≠ utf8 t := by
  simpa using literal_append_ne h [] []

/-- A text without one of its bytes does not begin so. -/
theorem after?_of_not_mem {start l : Bytes} {b : UInt8} (hb : b ∈ start) (hl : b ∉ l) :
    after? start l = none := by
  refine Option.eq_none_iff_forall_ne_some.2 fun rest hrest => hl ?_
  rw [after?_eq_some_iff.1 hrest]
  exact List.mem_append_left rest hb

/-- A line that is empty or begins with one of the given bytes. -/
def BeginsIn (heads l : Bytes) : Prop := ∀ b ∈ l.head?, b ∈ heads

@[simp] theorem beginsIn_nil {heads : Bytes} : BeginsIn heads [] := by simp [BeginsIn]

theorem beginsIn_literal {heads : Bytes} {s : String}
    (h : ∃ c cs, s = String.ofList (c :: cs) ∧ String.utf8EncodeChar c = [byte c] ∧
      byte c ∈ heads) (rest : Bytes) : BeginsIn heads (utf8 s ++ rest) := by
  obtain ⟨c, cs, rfl, hbyte, hc⟩ := h
  rw [utf8_ofList_cons, hbyte]
  simpa [BeginsIn] using hc

theorem beginsIn_utf8 {heads : Bytes} {s : String}
    (h : ∃ c cs, s = String.ofList (c :: cs) ∧ String.utf8EncodeChar c = [byte c] ∧
      byte c ∈ heads) : BeginsIn heads (utf8 s) := by
  simpa using beginsIn_literal h []

/-- It does not begin like a text that begins with another byte. -/
theorem BeginsIn.after?_eq_none {heads l start : Bytes} (h : BeginsIn heads l)
    (hstart : start.head?.any (· ∉ heads) = true) : after? start l = none := by
  cases start with
  | nil => simp at hstart
  | cons p ps =>
      cases l with
      | nil => rfl
      | cons b bs =>
          have hb : b ∈ heads := h b rfl
          have hne : p ≠ b := by
            rintro rfl
            simp [hb] at hstart
          rw [after?, if_neg hne]

theorem BeginsIn.ne {heads l t : Bytes} (h : BeginsIn heads l)
    (ht : t.head?.any (· ∉ heads) = true) : l ≠ t := by
  rintro rfl
  have hnone := h.after?_eq_none ht
  rw [after?_eq_some_iff.2 (List.append_nil l).symm] at hnone
  contradiction

/-- Lines that each begin so. -/
abbrev BeginIn (heads : Bytes) (ls : List Bytes) : Prop := AllLines (BeginsIn heads) ls

theorem BeginIn.mono {heads heads' : Bytes} {ls : List Bytes} (h : BeginIn heads ls)
    (hsub : heads ⊆ heads') : BeginIn heads' ls := fun l hl b hb => hsub (h l hl b hb)

/-! ## Reading lines -/

/-- What stands in a line between a beginning and an ending. -/
def between? (start ending l : Bytes) : Option Bytes := (after? start l).bind (before? ending)

/-- What the lines with a beginning and an ending say between them, in order. -/
def readings (start ending : Bytes) (ls : List Bytes) : List Bytes :=
  ls.filterMap (between? start ending)

/-- The lines between an opening line and the next closing brace. -/
def bodyOf (opening : Bytes) (ls : List Bytes) : List Bytes :=
  ((ls.dropWhile (· != opening)).drop 1).takeWhile (· != utf8 "\x7d")

/-- The lines between the first line that begins so and the next closing brace. -/
def blockOf (start : Bytes) (ls : List Bytes) : List Bytes :=
  ((ls.dropWhile fun l => (after? start l).isNone).drop 1).takeWhile (· != utf8 "\x7d")

@[simp] theorem after?_append (start rest : Bytes) : after? start (start ++ rest) = some rest :=
  after?_eq_some_iff.2 rfl

@[simp] theorem before?_append (rest ending : Bytes) :
    before? ending (rest ++ ending) = some rest :=
  before?_eq_some_iff.2 rfl

theorem cut?_append {sep : UInt8} {l : Bytes} (h : sep ∉ l) (r : Bytes) :
    cut? sep (l ++ sep :: r) = some (l, r) :=
  cut?_eq_some_iff.2 ⟨h, rfl⟩

@[simp] theorem between?_append (start x ending : Bytes) :
    between? start ending (start ++ (x ++ ending)) = some x := by
  rw [between?, after?_eq_some_iff.2 rfl, Option.bind_some, before?_eq_some_iff.2 rfl]

theorem between?_of_after? {start ending l : Bytes} (h : after? start l = none) :
    between? start ending l = none := by
  rw [between?, h, Option.bind_none]

theorem between?_nil {start : Bytes} (h : start ≠ []) (ending : Bytes) :
    between? start ending [] = none := by
  obtain ⟨b, bs, rfl⟩ := List.exists_cons_of_ne_nil h
  rfl

theorem between?_literal {s t : String} (h : Clash s t) (ending rest : Bytes) :
    between? (utf8 s) ending (utf8 t ++ rest) = none :=
  between?_of_after? (after?_literal h rest)

theorem between?_utf8 {s t : String} (h : Clash s t) (ending : Bytes) :
    between? (utf8 s) ending (utf8 t) = none := by
  have hrest := between?_literal h ending []
  rwa [List.append_nil] at hrest

theorem filterMap_map_of_some {α β γ : Type} {f : α → β} {g : β → Option γ} {h : α → γ}
    {xs : List α} (hall : ∀ x ∈ xs, g (f x) = some (h x)) :
    (xs.map f).filterMap g = xs.map h := by
  rw [List.filterMap_map, ← List.filterMap_eq_map]
  exact List.filterMap_congr hall

theorem readings_append (start ending : Bytes) (ls ms : List Bytes) :
    readings start ending (ls ++ ms) = readings start ending ls ++ readings start ending ms :=
  List.filterMap_append

theorem readings_of_beginIn {heads start : Bytes} {ls : List Bytes} (h : BeginIn heads ls)
    (hstart : start.head?.any (· ∉ heads) = true) (ending : Bytes) :
    readings start ending ls = [] :=
  List.filterMap_eq_nil_iff.2 fun l hl => between?_of_after? ((h l hl).after?_eq_none hstart)

/-- The first block that opens so is found, and ends with its first closing brace. -/
theorem bodyOf_append {opening : Bytes} {before body : List Bytes} (hbefore : opening ∉ before)
    (hbody : utf8 "\x7d" ∉ body) (rest : List Bytes) :
    bodyOf opening (before ++ opening :: (body ++ utf8 "\x7d" :: rest)) = body := by
  have hpass : ∀ {x : Bytes} {ls : List Bytes}, x ∉ ls → ∀ l ∈ ls, (l != x) = true := by
    intro x ls hx l hl
    rw [bne_iff_ne]
    rintro rfl
    exact hx hl
  rw [bodyOf, List.dropWhile_append_of_pos (hpass hbefore), List.dropWhile_cons_of_neg (by simp),
    List.drop_succ_cons, List.drop_zero, List.takeWhile_append_of_pos (hpass hbody),
    List.takeWhile_cons_of_neg (by simp), List.append_nil]

/-- The first block with a line that begins so is found, and ends with its first closing brace. -/
theorem blockOf_append {start : Bytes} {before body : List Bytes}
    (hbefore : ∀ l ∈ before, after? start l = none) (hbody : utf8 "\x7d" ∉ body) (rest : Bytes)
    (below : List Bytes) :
    blockOf start (before ++ (start ++ rest) :: (body ++ utf8 "\x7d" :: below)) = body := by
  have hpass : ∀ l ∈ before, (after? start l).isNone = true := by
    intro l hl
    rw [hbefore l hl, Option.isNone_none]
  have hinside : ∀ l ∈ body, (l != utf8 "\x7d") = true := by
    intro l hl
    rw [bne_iff_ne]
    exact ne_of_mem_of_not_mem hl hbody
  rw [blockOf, List.dropWhile_append_of_pos hpass, List.dropWhile_cons_of_neg (by simp),
    List.drop_succ_cons, List.drop_zero, List.takeWhile_append_of_pos hinside,
    List.takeWhile_cons_of_neg (by simp), List.append_nil]

/-- Lines of which the first, and no other, begins something. -/
def OpensWith (begins : Bytes → Bool) : List Bytes → Prop
  | [] => False
  | top :: below => begins top = true ∧ AllLines (begins · = false) below

@[simp] theorem opensWith_cons_iff {begins : Bytes → Bool} {top : Bytes} {below : List Bytes} :
    OpensWith begins (top :: below) ↔
      begins top = true ∧ AllLines (begins · = false) below := Iff.rfl

instance (begins : Bytes → Bool) (ls : List Bytes) : Decidable (OpensWith begins ls) :=
  match ls with
  | [] => inferInstanceAs (Decidable False)
  | _ :: _ => inferInstanceAs (Decidable (_ ∧ _))

/-- Cut before each line that begins something, blocks that open so come apart again. -/
theorem splitBy_flatten {begins : Bytes → Bool} {blocks : List (List Bytes)}
    (h : ∀ block ∈ blocks, OpensWith begins block) :
    blocks.flatten.splitBy (fun _ l => !begins l) = blocks := by
  refine List.splitBy_flatten (h []) (fun block hblock => ?_) ?_
  · cases block with
    | nil => exact List.isChain_nil
    | cons top below =>
        have hbelow : ∀ l ∈ below, (!begins l) = true := by
          intro l hl
          rw [(h _ hblock).2 l hl, Bool.not_false]
        have hinside : (top :: below).Pairwise fun _ l => (!begins l) = true :=
          List.pairwise_cons.2 ⟨hbelow, List.pairwise_of_forall_mem_list fun _ _ => hbelow⟩
        exact hinside.isChain
  · -- what stands behind a block begins one as well
    have hnext : blocks.Pairwise fun a b => ∃ (ha : a ≠ []) (hb : b ≠ []),
        (fun _ l => !begins l) (a.getLast ha) (b.head hb) = false := by
      refine List.pairwise_of_forall_mem_list fun a ha b hb => ?_
      cases a with
      | nil => exact (h [] ha).elim
      | cons x xs =>
          cases b with
          | nil => exact (h [] hb).elim
          | cons y ys => exact ⟨List.cons_ne_nil _ _, List.cons_ne_nil _ _, by simp [(h _ hb).1]⟩
    exact hnext.isChain

/-! ## Reading inside a line -/

/-- The items of a list with a comma and a space between neighbours. -/
def listed (bs : Bytes) : List Bytes :=
  (pieces (byte ',') bs).map fun item => (after? (utf8 " ") item).getD item

theorem listed_joined {items : List Bytes} (hne : items ≠ [])
    (h : ∀ item ∈ items, byte ',' ∉ item ∧ after? (utf8 " ") item = none) :
    listed (joined (utf8 ", ") items) = items := by
  cases items with
  | nil => contradiction
  | cons first rest =>
      obtain ⟨⟨hcomma, hspace⟩, hrest⟩ := List.forall_mem_cons.1 h
      have hsep : utf8 ", " = [byte ','] ++ utf8 " " := rfl
      have hpieces : pieces (byte ',') (joined [byte ','] (first :: rest.map (utf8 " " ++ ·))) =
          first :: rest.map (utf8 " " ++ ·) := by
        refine pieces_joined (List.cons_ne_nil _ _) (List.forall_mem_cons.2 ⟨hcomma, ?_⟩)
        refine List.forall_mem_map.2 fun item hitem => ?_
        have hblank : byte ',' ∉ utf8 " " := by decide
        simp [hblank, (hrest item hitem).1]
      rw [listed, hsep, joined_append_sep, hpieces, List.map_cons, hspace, List.map_map]
      simp [Function.comp_def]

/-- The number that a decimal numeral stands for. -/
def numeral? (bs : Bytes) : Option Nat :=
  if bs.isEmpty || !bs.all Identifier.isDigit then none
  else some (Nat.ofDigitChars 10 (bs.map asciiChar) 0)

/-- A number is read back from its numeral. -/
theorem numeral?_decimal (n : Nat) : numeral? (decimal n) = some n := by
  have hall : (decimal n).all Identifier.isDigit = true := by
    rw [decimal, List.all_map, List.all_eq_true]
    intro c hc
    obtain ⟨hbyte, hrange⟩ := digit_of_mem_toDigits hc
    have hlow : (byte '0').toNat = 48 := by decide
    have hhigh : (byte '9').toNat = 57 := by decide
    simp only [Function.comp_apply, Identifier.isDigit, Bool.and_eq_true, decide_eq_true_eq,
      UInt8.le_iff_toNat_le, hbyte, hlow, hhigh]
    exact hrange
  have hchars : (decimal n).map asciiChar = Nat.toDigits 10 n := by
    have hdigit : ∀ c ∈ Nat.toDigits 10 n, (asciiChar ∘ byte) c = id c := by
      intro c hc
      rw [Function.comp_apply, asciiChar, (digit_of_mem_toDigits hc).1, Char.ofNat_toNat, id]
    rw [decimal, List.map_map, List.map_congr_left hdigit, List.map_id]
  have hne : (decimal n).isEmpty = false := by simp [decimal]
  rw [numeral?, hall, hne, hchars, Nat.ofDigitChars_ten_toDigits]
  rfl

end Bytes

end ZincBind

import ZincBind.Proofs.Declaration.TypeNames

/-!
# ZincBind.Proofs.Declaration.Camel

Which names share a type name.  A type name keeps neither the case of a name nor all of its
underscores; what it keeps is the name's norm (`Camel.norm`), in which letters are in lower case and
only those underscores are left that a letter follows.

The work is done on bytes.  On names, capitalizing segments is a single pass that remembers whether a
segment has just begun (`camel_eq_camelFrom`), and two inductions along that pass relate it to the
norm:

* `uncamel_camel` — the norm can be read off the type name;
* `camelFrom_norm` — the type name can be read off the norm.

So two names share a type name exactly when they share their norm (`camel_eq_iff`), and names that are
their own norm never do.
-/

namespace ZincBind

namespace Camel

open Bytes Grammar Identifier

/-! ## Case -/

/-- An upper-case letter. -/
def isUpper (b : UInt8) : Bool := byte 'A' ≤ b && b ≤ byte 'Z'

/-- A lower-case letter. -/
def isLower (b : UInt8) : Bool := byte 'a' ≤ b && b ≤ byte 'z'

/-- An upper-case letter in lower case; another byte as it is. -/
def lower (b : UInt8) : UInt8 := if isUpper b then b + 32 else b

/-- A lower-case letter in upper case; another byte as it is. -/
def upper (b : UInt8) : UInt8 := if isLower b then b - 32 else b

theorem isUpper_iff {b : UInt8} : isUpper b = true ↔ 65 ≤ b.toNat ∧ b.toNat ≤ 90 := by
  rw [isUpper, Bool.and_eq_true, decide_eq_true_iff, decide_eq_true_iff]
  rfl

theorem isLower_iff {b : UInt8} : isLower b = true ↔ 97 ≤ b.toNat ∧ b.toNat ≤ 122 := by
  rw [isLower, Bool.and_eq_true, decide_eq_true_iff, decide_eq_true_iff]
  rfl

theorem isLetter_eq (b : UInt8) : isLetter b = (isLower b || isUpper b) := rfl

theorem toNat_lower (b : UInt8) :
    (lower b).toNat = if 65 ≤ b.toNat ∧ b.toNat ≤ 90 then b.toNat + 32 else b.toNat := by
  by_cases h : isUpper b = true
  · have hb := isUpper_iff.1 h
    have hgap : UInt8.toNat 32 = 32 := rfl
    rw [lower, if_pos h, if_pos hb, UInt8.toNat_add]
    omega
  · rw [lower, if_neg h, if_neg (mt isUpper_iff.2 h)]

theorem toNat_upper (b : UInt8) :
    (upper b).toNat = if 97 ≤ b.toNat ∧ b.toNat ≤ 122 then b.toNat - 32 else b.toNat := by
  by_cases h : isLower b = true
  · have hb := isLower_iff.1 h
    have hgap : UInt8.toNat 32 = 32 := rfl
    rw [upper, if_pos h, if_pos hb, UInt8.toNat_sub]
    omega
  · rw [upper, if_neg h, if_neg (mt isLower_iff.2 h)]

/-- Changing case twice is changing it once. -/
theorem recase (b : UInt8) :
    lower (upper b) = lower b ∧ upper (lower b) = upper b ∧ lower (lower b) = lower b := by
  simp only [← UInt8.toNat_inj, toNat_lower, toNat_upper]
  grind

/-- A change of case makes no underscore, and lower case leaves no upper-case letter. -/
theorem cased_ne {b : UInt8} (hne : b ≠ byte '_') :
    lower b ≠ byte '_' ∧ upper b ≠ byte '_' ∧ isUpper (lower b) = false := by
  have hunderscore : (byte '_').toNat = 95 := rfl
  simp only [ne_eq, ← UInt8.toNat_inj, toNat_lower, toNat_upper, ← Bool.not_eq_true, isUpper_iff,
    hunderscore] at hne ⊢
  grind

/-- A letter has an upper case; what is no letter has no case. -/
theorem upper_cases (b : UInt8) :
    (isLetter b = true ∧ isUpper (upper b) = true) ∨ (isLetter b = false ∧ upper b = lower b) := by
  simp only [isLetter_eq, Bool.or_eq_true, ← Bool.not_eq_true, isLower_iff, isUpper_iff,
    ← UInt8.toNat_inj, toNat_lower, toNat_upper]
  grind

theorem letter_ne_underscore {b : UInt8} (hb : isLetter b = true) : b ≠ byte '_' := by
  rintro rfl
  exact absurd hb (by decide)

/-! ## Norms -/

/-- A name with every letter in lower case, and without the underscores that no letter follows. -/
def norm : Bytes → Bytes
  | [] => []
  | b :: bs =>
    if b = byte '_' then
      if bs.head?.any isLetter then b :: norm bs else norm bs
    else lower b :: norm bs

/-- A text with an underscore and the lower-case letter in place of every upper-case letter. -/
def spaced (bs : Bytes) : Bytes :=
  bs.flatMap fun b => if isUpper b then [byte '_', lower b] else [b]

/-- The first byte in lower case, then every upper-case letter as an underscore and the lower-case
letter. -/
def uncamel : Bytes → Bytes
  | [] => []
  | b :: bs => lower b :: spaced bs

/-! ## Type names in one pass -/

/-- The bytes of a type name from some point of the name on; `start` says whether a segment begins
there. -/
def camelFrom : Bool → Bytes → Bytes
  | _, [] => []
  | start, b :: bs =>
    if b = byte '_' then camelFrom true bs
    else (if start then upper b else lower b) :: camelFrom false bs

@[simp] theorem camelFrom_underscore (start : Bool) (bs : Bytes) :
    camelFrom start (byte '_' :: bs) = camelFrom true bs := by
  simp [camelFrom]

theorem camelFrom_cons_of_ne (start : Bool) {b : UInt8} (hb : b ≠ byte '_') (bs : Bytes) :
    camelFrom start (b :: bs) = (if start then upper b else lower b) :: camelFrom false bs := by
  simp [camelFrom, hb]

/-- A segment of a name is capitalized byte by byte. -/
theorem capitalized_cons {b : UInt8} {bs : Bytes} (h : ∀ c ∈ b :: bs, c ∈ wordBytes) :
    capitalized (b :: bs) = upper b :: bs.map lower := by
  have hascii : ∀ c ∈ b :: bs, c.toNat < 128 := fun c hc => (visible_of_mem_wordBytes (h c hc)).2
  have hupper : ∀ c ∈ wordBytes,
      String.utf8EncodeChar (Glyph.upperChar (asciiChar c)) = [upper c] :=
    List.map_inj_left.1 (by decide)
  have hlower : ∀ c ∈ wordBytes,
      String.utf8EncodeChar (Glyph.lowerChar (asciiChar c)) = [lower c] :=
    List.map_inj_left.1 (by decide)
  have hrest : (bs.flatMap fun c => String.utf8EncodeChar (Glyph.lowerChar (asciiChar c))) =
      bs.map lower := by
    rw [List.map_eq_flatMap]
    exact List.flatMap_congr fun c hc => hlower c (h c (List.mem_cons_of_mem b hc))
  rw [capitalized, Glyph.decode_ascii hascii]
  simp only [List.map_cons, Glyph.shown, List.flatMap_map, hrest]
  rw [hupper b (h b List.mem_cons_self), List.singleton_append]

/-- **One pass**: the type name of a text of name bytes, and what is left of it inside a segment. -/
theorem camelFrom_eq {bs p : Bytes} {ps : List Bytes} (h : ∀ c ∈ bs, c ∈ wordBytes)
    (hpieces : pieces (byte '_') bs = p :: ps) :
    camelFrom true bs = capitalized p ++ ps.flatMap capitalized ∧
      camelFrom false bs = p.map lower ++ ps.flatMap capitalized := by
  induction bs generalizing p ps with
  | nil =>
      simp only [pieces_nil, List.cons.injEq] at hpieces
      obtain ⟨rfl, rfl⟩ := hpieces
      exact ⟨rfl, rfl⟩
  | cons b bs ih =>
      have hbs : ∀ c ∈ bs, c ∈ wordBytes := fun c hc => h c (List.mem_cons_of_mem b hc)
      cases hrest : pieces (byte '_') bs with
      | nil => exact absurd hrest (pieces_ne_nil _ bs)
      | cons q qs =>
          obtain ⟨hstart, hinside⟩ := ih hbs hrest
          by_cases hb : b = byte '_'
          · subst hb
            rw [pieces, if_pos rfl, hrest, List.cons.injEq] at hpieces
            obtain ⟨rfl, rfl⟩ := hpieces
            simp [hstart, capitalized, Glyph.decode, Glyph.decodeFrom]
          · rw [pieces_cons_of_ne hb hrest, List.cons.injEq] at hpieces
            obtain ⟨rfl, rfl⟩ := hpieces
            have hq : q <:+: bs := infix_of_mem_pieces (hrest ▸ List.mem_cons_self)
            have hsegment : ∀ c ∈ b :: q, c ∈ wordBytes := fun c hc =>
              h c (List.cons_subset_cons b hq.subset hc)
            simp [camelFrom_cons_of_ne _ hb, capitalized_cons hsegment, hinside]

theorem camel_eq_camelFrom {name : Bytes} (h : ∀ c ∈ name, c ∈ wordBytes) :
    camel name = camelFrom true name := by
  cases hpieces : pieces (byte '_') name with
  | nil => exact absurd hpieces (pieces_ne_nil _ name)
  | cons p ps => rw [camel, hpieces, List.flatMap_cons, (camelFrom_eq h hpieces).1]

/-! ## The norm of a type name -/

theorem norm_cons_of_ne {b : UInt8} (hb : b ≠ byte '_') (bs : Bytes) :
    norm (b :: bs) = lower b :: norm bs := by
  simp [norm, hb]

theorem norm_underscore (bs : Bytes) :
    norm (byte '_' :: bs) = if bs.head?.any isLetter then byte '_' :: norm bs else norm bs := by
  simp [norm]

@[simp] theorem norm_underscore_underscore (bs : Bytes) :
    norm (byte '_' :: byte '_' :: bs) = norm (byte '_' :: bs) := by
  have hletter : isLetter (byte '_') = false := by decide
  rw [norm_underscore, List.head?_cons, Option.any_some, hletter]
  simp

/-- Reading a pass back: inside a segment it gives the norm of what was passed, and at the
beginning of one that of an underscore and what was passed. -/
theorem spaced_camelFrom (bs : Bytes) :
    spaced (camelFrom false bs) = norm bs ∧
      spaced (camelFrom true bs) = norm (byte '_' :: bs) := by
  induction bs with
  | nil => exact ⟨rfl, rfl⟩
  | cons b bs ih =>
      obtain ⟨hinside, hstart⟩ := ih
      by_cases hne : b = byte '_'
      · subst hne
        simp [hstart]
      · obtain ⟨-, -, hlower⟩ := cased_ne hne
        have hword : spaced (lower b :: camelFrom false bs) = norm (b :: bs) := by
          rw [norm_cons_of_ne hne, ← hinside]
          simp [spaced, hlower]
        rw [camelFrom_cons_of_ne _ hne, camelFrom_cons_of_ne _ hne, norm_underscore]
        refine ⟨hword, ?_⟩
        cases upper_cases b with
        | inl hletter =>
            simp [hletter.1, norm_cons_of_ne hne, ← hinside, spaced, hletter.2, recase b]
        | inr hdigit => simp [hdigit.1, hdigit.2, hword]

/-- **Norm from type name**: what a type name keeps is the norm of the name. -/
theorem uncamel_camel {name : Bytes} (h : IsName name) : uncamel (camel name) = norm name := by
  rw [camel_eq_camelFrom fun c => h.mem_wordBytes]
  obtain ⟨b, bs, rfl, hb, -⟩ := h
  have hne := letter_ne_underscore ((isLetter_iff b).2 hb)
  rw [camelFrom_cons_of_ne _ hne, norm_cons_of_ne hne, if_pos rfl, uncamel, (recase b).1,
    (spaced_camelFrom bs).1]

/-- Behind an underscore a byte that is no letter continues as it would begin. -/
theorem camelFrom_of_not_letter {bs : Bytes} (hhead : bs.head?.any isLetter = false)
    (start : Bool) :
    camelFrom start bs = camelFrom true bs := by
  cases bs with
  | nil => rfl
  | cons b bs =>
      by_cases hne : b = byte '_'
      · simp [hne]
      · have hcase : upper b = lower b := by
          cases upper_cases b with
          | inl hletter => simp [hletter.1] at hhead
          | inr hdigit => exact hdigit.2
        simp [camelFrom_cons_of_ne _ hne, hcase]

/-- A pass over the norm gives what the pass over the name does. -/
theorem camelFrom_norm (bs : Bytes) (start : Bool) :
    camelFrom start (norm bs) = camelFrom start bs := by
  induction bs generalizing start with
  | nil => rfl
  | cons b bs ih =>
      by_cases hne : b = byte '_'
      · subst hne
        rw [norm_underscore, camelFrom_underscore]
        split
        · rw [camelFrom_underscore, ih]
        · next hhead => rw [ih, camelFrom_of_not_letter (by simpa using hhead)]
      · obtain ⟨-, hupper, hlower⟩ := recase b
        rw [norm_cons_of_ne hne, camelFrom_cons_of_ne _ (cased_ne hne).1,
          camelFrom_cons_of_ne _ hne, hupper, hlower, ih]

/-- **Type names and norms**: two names have the same type name exactly when they have the same
norm. -/
theorem camel_eq_iff {s t : Bytes} (hs : IsName s) (ht : IsName t) :
    camel s = camel t ↔ norm s = norm t := by
  have hpass : ∀ {name : Bytes}, IsName name → camel name = camelFrom true (norm name) := by
    intro name h
    rw [camelFrom_norm, camel_eq_camelFrom fun c => h.mem_wordBytes]
  constructor
  · intro h
    rw [← uncamel_camel hs, h, uncamel_camel ht]
  · intro h
    rw [hpass hs, h, ← hpass ht]

/-! ## Type names are names -/

theorem underscore_not_mem_camelFrom (bs : Bytes) (start : Bool) :
    byte '_' ∉ camelFrom start bs := by
  induction bs generalizing start with
  | nil => exact List.not_mem_nil
  | cons b bs ih =>
      by_cases hne : b = byte '_'
      · simp [hne, ih]
      · obtain ⟨hlower, hupper, -⟩ := cased_ne hne
        cases start <;> simp [camelFrom_cons_of_ne _ hne, ih, hlower.symm, hupper.symm]

/-- A type name begins with an upper-case letter and has no underscore. -/
theorem camel_shape {name : Bytes} (h : IsName name) :
    (∃ b bs, camel name = b :: bs ∧ isUpper b = true) ∧ byte '_' ∉ camel name := by
  rw [camel_eq_camelFrom fun c => h.mem_wordBytes]
  refine ⟨?_, underscore_not_mem_camelFrom name true⟩
  obtain ⟨b, bs, rfl, hb, -⟩ := h
  have hletter : isLetter b = true := (isLetter_iff b).2 hb
  refine ⟨upper b, camelFrom false bs, camelFrom_cons_of_ne _ (letter_ne_underscore hletter) bs, ?_⟩
  cases upper_cases b with
  | inl hupper => exact hupper.2
  | inr hdigit => simp [hletter] at hdigit

theorem isName_camel {name : Bytes} (h : IsName name) : IsName (camel name) := by
  obtain ⟨⟨b, bs, hcamel, hb⟩, -⟩ := camel_shape h
  have hletter : isLetter b = true := by simp [isLetter_eq, hb]
  have hword : ∀ c ∈ camel name, c ∈ wordBytes := fun c => mem_wordBytes_of_mem_camel h
  rw [hcamel] at hword ⊢
  exact ⟨b, bs, rfl, (isLetter_iff b).1 hletter, fun c hc => hword c (List.mem_cons_of_mem b hc)⟩

/-! ## Names that are their own norm -/

/-- A lower-case letter, then lower-case letters and digits. -/
def IsWord (w : Bytes) : Prop :=
  ∃ b bs, w = b :: bs ∧ isLower b = true ∧ ∀ c ∈ bs, isLower c = true ∨ isDigit c = true

/-- Such words with an underscore between neighbours. -/
def IsSnake (name : Bytes) : Prop :=
  ∃ words, words ≠ [] ∧ name = joined (utf8 "_") words ∧ ∀ w ∈ words, IsWord w

/-- Lower-case letters and digits are as they are in a norm. -/
theorem lower_of_isLower {c : UInt8} (h : isLower c = true ∨ isDigit c = true) :
    c ≠ byte '_' ∧ lower c = c := by
  have hunderscore : (byte '_').toNat = 95 := rfl
  have hdigit : isDigit c = true ↔ 48 ≤ c.toNat ∧ c.toNat ≤ 57 := by
    rw [isDigit, Bool.and_eq_true, decide_eq_true_iff, decide_eq_true_iff]
    rfl
  rw [isLower_iff, hdigit] at h
  simp only [ne_eq, ← UInt8.toNat_inj, toNat_lower, hunderscore]
  grind

theorem norm_append_of_lower {w : Bytes} (h : ∀ c ∈ w, isLower c = true ∨ isDigit c = true)
    (rest : Bytes) : norm (w ++ rest) = w ++ norm rest := by
  induction w with
  | nil => rfl
  | cons c w ih =>
      obtain ⟨hne, hlower⟩ := lower_of_isLower (h c List.mem_cons_self)
      rw [List.cons_append, norm_cons_of_ne hne, hlower, ih fun d hd => h d (List.mem_cons_of_mem c hd),
        List.cons_append]

theorem norm_joined {words : List Bytes} (h : ∀ w ∈ words, IsWord w) :
    norm (joined (utf8 "_") words) = joined (utf8 "_") words := by
  have hlow : ∀ {w : Bytes}, IsWord w → ∀ c ∈ w, isLower c = true ∨ isDigit c = true := by
    rintro w ⟨b, bs, rfl, hb, hbs⟩ c hc
    rcases List.mem_cons.1 hc with rfl | hc
    · exact Or.inl hb
    · exact hbs c hc
  have hsep : utf8 "_" = [byte '_'] := rfl
  induction words with
  | nil => rfl
  | cons w ws ih =>
      have hw := hlow (h w List.mem_cons_self)
      cases ws with
      | nil => simpa [norm] using norm_append_of_lower hw []
      | cons v vs =>
          -- the next word begins with a letter, so the underscore before it stays
          have hhead : (joined (utf8 "_") (v :: vs)).head?.any isLetter = true := by
            obtain ⟨b, bs, rfl, hb, -⟩ := h v (by simp)
            have hletter : isLetter b = true := by simp [isLetter_eq, hb]
            cases vs <;> simp [joined, hletter]
          rw [joined_cons_cons, List.append_assoc, norm_append_of_lower hw, hsep,
            List.singleton_append, norm_underscore, ← hsep, if_pos hhead,
            ih fun u hu => h u (List.mem_cons_of_mem w hu)]

theorem norm_of_isSnake {name : Bytes} (h : IsSnake name) : norm name = name := by
  obtain ⟨words, -, rfl, hwords⟩ := h
  exact norm_joined hwords

end Camel

end ZincBind

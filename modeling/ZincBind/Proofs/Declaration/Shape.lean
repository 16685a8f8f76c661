import ZincBind.Declaration.Parser
import ZincBind.Proofs.Text.Separators

/-!
# ZincBind.Proofs.Declaration.Shape

The outer shape of a declaration line, written down without the reader.  `Grammar.Reading` is any
way to see a text as keyword, gap, name and body; a line may have several, because blanks can
belong to the gap or to the name.  The reader takes the one with the longest gap:

* `ofLine?_eq_some_iff` — the shape found is the reading with the longest gap;
* `ofLine?_eq_none_iff` — no shape is found only where there is no reading at all.

The alphabets are spelled out as texts and tied to the reader's byte classes once, here.
-/

namespace ZincBind

namespace Grammar

/-! ## Alphabets -/

/-- The letters a name may begin with. -/
def letters : Bytes := utf8 "ABCDEFGHIJKLMNOPQRSTUVWXYZabcdefghijklmnopqrstuvwxyz"

/-- The bytes a name may go on with. -/
def wordBytes : Bytes :=
  utf8 "0123456789ABCDEFGHIJKLMNOPQRSTUVWXYZ_abcdefghijklmnopqrstuvwxyz"

/-- The blanks between keyword and name. -/
def gapBytes : Bytes := utf8 "\t\n\x0c\r "

/-- The blanks after a declaration. -/
def tailBytes : Bytes := utf8 "\t\r "

/-- A letter, then letters, digits and underscores. -/
def IsName (s : Bytes) : Prop :=
  ∃ b bs, s = b :: bs ∧ b ∈ letters ∧ ∀ c ∈ bs, c ∈ wordBytes

/-- A byte class is an alphabet if its members among all 256 bytes, in ascending order, are the
bytes of the alphabet. -/
theorem mem_iff_of_filter_eq {p : UInt8 → Bool} {alphabet : Bytes}
    (h : (List.range 256).filter (fun n => p (UInt8.ofNat n)) = alphabet.map UInt8.toNat)
    (b : UInt8) : p b = true ↔ b ∈ alphabet := by
  have hmap : b ∈ alphabet ↔ b.toNat ∈ alphabet.map UInt8.toNat := by
    rw [List.mem_map]
    exact ⟨fun hb => ⟨b, hb, rfl⟩, fun ⟨c, hc, hcb⟩ => UInt8.toNat_inj.1 hcb ▸ hc⟩
  rw [hmap, ← h, List.mem_filter, List.mem_range, UInt8.ofNat_toNat]
  exact ⟨fun hb => ⟨UInt8.toNat_lt b, hb⟩, And.right⟩

/-- What holds of the bytes of an alphabet is found by going through them, not through all 256. -/
theorem forall_mem_of_all {p : UInt8 → Prop} [DecidablePred p] {alphabet : Bytes}
    (h : alphabet.all (fun b => p b) = true) : ∀ b ∈ alphabet, p b := by
  simpa using h

theorem isLetter_iff (b : UInt8) : Identifier.isLetter b = true ↔ b ∈ letters :=
  mem_iff_of_filter_eq (by decide) b

theorem isWord_iff (b : UInt8) : Identifier.isWord b = true ↔ b ∈ wordBytes :=
  mem_iff_of_filter_eq (by decide) b

theorem isGap_iff (b : UInt8) : isGap b = true ↔ b ∈ gapBytes :=
  mem_iff_of_filter_eq (by decide) b

theorem isTail_iff (b : UInt8) : isTail b = true ↔ b ∈ tailBytes :=
  mem_iff_of_filter_eq (by decide) b

/-- The reader's test for a name is the grammar's. -/
theorem isValid_iff {s : Bytes} : Identifier.isValid s = true ↔ IsName s := by
  cases s with
  | nil => simp [IsName]
  | cons b bs =>
      simp only [Identifier.isValid, Bool.and_eq_true, List.all_eq_true, isLetter_iff, isWord_iff,
        IsName, List.cons.injEq]
      constructor
      · rintro ⟨hb, hbs⟩
        exact ⟨b, bs, ⟨rfl, rfl⟩, hb, hbs⟩
      · rintro ⟨_, _, ⟨rfl, rfl⟩, hb, hbs⟩
        exact ⟨hb, hbs⟩

/-- Names are read as they stand. -/
theorem parse_identifier_iff {s : Bytes} : Identifier.parse s = .ok s ↔ IsName s := by
  rw [← isValid_iff, Identifier.parse]
  split <;> simp_all

/-! ## Readings -/

/-- A way to see a text as keyword, gap, name and body in parentheses. -/
structure Reading (t gap name body : Bytes) : Prop where
  text : t = utf8 "predicate" ++ gap ++ name ++ utf8 "(" ++ body ++ utf8 ")"
  gap_ne_nil : gap ≠ []
  gap_subset : ∀ b ∈ gap, b ∈ gapBytes
  name_ne_nil : name ≠ []
  open_not_mem_name : byte '(' ∉ name
  body_ne_nil : body ≠ []
  feed_not_mem_body : byte '\n' ∉ body

/-- The reading with the longest gap. -/
structure GreedyReading (t gap name body : Bytes) : Prop extends Reading t gap name body where
  longest : ∀ gap' name' body', Reading t gap' name' body' → gap'.length ≤ gap.length

/-- A line without its blank end. -/
def Stripped (line t : Bytes) : Prop :=
  ∃ tail, line = t ++ tail ∧ (∀ b ∈ tail, b ∈ tailBytes) ∧ ∀ b ∈ t.getLast?, b ∉ tailBytes

theorem stripped_iff {line t : Bytes} : Stripped line t ↔ line.stripEnd isTail = t := by
  simp only [Bytes.stripEnd_eq_iff, Stripped, isTail_iff, ← Bool.not_eq_true]

theorem Reading.open_not_mem_head {t gap name body : Bytes} (h : Reading t gap name body) :
    byte '(' ∉ gap ++ name := by
  rw [List.mem_append, not_or]
  refine ⟨fun hmem => ?_, h.open_not_mem_name⟩
  exact absurd (h.gap_subset _ hmem) (by decide)

/-- Two readings of a text differ only in where the gap ends. -/
theorem Reading.head_eq {t gap name body gap' name' body' : Bytes} (h : Reading t gap name body)
    (h' : Reading t gap' name' body') : gap ++ name = gap' ++ name' ∧ body = body' := by
  have htext : gap ++ name ++ byte '(' :: (body ++ utf8 ")") =
      gap' ++ name' ++ byte '(' :: (body' ++ utf8 ")") := by
    have ht := h.text.symm.trans h'.text
    simp only [List.append_assoc] at ht ⊢
    exact List.append_cancel_left ht
  -- the first parenthesis is the same in both
  have hcut := Bytes.cut?_eq_some_iff.2 ⟨h.open_not_mem_head, htext.symm⟩
  have hcut' := Bytes.cut?_eq_some_iff.2
    ⟨h'.open_not_mem_head, Eq.refl (gap' ++ name' ++ byte '(' :: (body' ++ utf8 ")"))⟩
  obtain ⟨hhead, hbody⟩ := Prod.mk.injEq .. ▸ Option.some.inj (hcut.symm.trans hcut')
  exact ⟨hhead, List.append_cancel_right hbody⟩

/-- A gap cannot grow exactly when the name has one byte or begins with no blank. -/
theorem Reading.greedy_iff {t gap name body : Bytes} (h : Reading t gap name body) :
    GreedyReading t gap name body ↔ name.length = 1 ∨ ∀ b ∈ name.head?, b ∉ gapBytes := by
  constructor
  · intro hg
    rcases hname : name with _ | ⟨b, _ | ⟨c, rest⟩⟩
    · exact absurd hname h.name_ne_nil
    · exact Or.inl rfl
    · right
      intro x hx hgap
      obtain rfl : b = x := by simpa using hx
      -- the gap could take one more byte
      have hlonger : Reading t (gap ++ [b]) (c :: rest) body := by
        refine ⟨?_, by simp, ?_, by simp, ?_, h.body_ne_nil, h.feed_not_mem_body⟩
        · rw [h.text, hname]
          simp
        · intro x hx
          rcases List.mem_append.1 hx with hx | hx
          · exact h.gap_subset x hx
          · rwa [List.mem_singleton.1 hx]
        · intro hmem
          exact h.open_not_mem_name (hname ▸ List.mem_cons_of_mem b hmem)
      have hle := hg.longest _ _ _ hlonger
      rw [List.length_append, List.length_singleton] at hle
      omega
  · intro hstop
    refine ⟨h, fun gap' name' body' h' => ?_⟩
    by_contra hlt
    obtain ⟨hhead, -⟩ := h.head_eq h'
    obtain ⟨more, rfl⟩ : gap <+: gap' :=
      List.prefix_of_prefix_length_le (List.prefix_append gap name)
        (hhead ▸ List.prefix_append gap' name') (by omega)
    rw [List.append_assoc, List.append_cancel_left_eq] at hhead
    cases more with
    | nil => simp at hlt
    | cons b more =>
        have hb : b ∈ gapBytes := h'.gap_subset b (by simp)
        subst hhead
        rcases hstop with hlen | hblank
        · have hne := List.length_pos_of_ne_nil h'.name_ne_nil
          simp only [List.cons_append, List.length_cons, List.length_append] at hlen
          omega
        · exact hblank b (by simp) hb

end Grammar

namespace Shape

open Grammar

/-! ## The name -/

/-- The name read off the text before the parenthesis: what a longest gap leaves. -/
theorem name?_eq_some_iff {head name : Bytes} :
    name? head = some name ↔
      ∃ gap, head = gap ++ name ∧ gap ≠ [] ∧ (∀ b ∈ gap, b ∈ gapBytes) ∧ name ≠ [] ∧
        (name.length = 1 ∨ ∀ b ∈ name.head?, b ∉ gapBytes) := by
  constructor
  · intro h
    cases head with
    | nil => simp [name?] at h
    | cons g rest =>
        rw [name?] at h
        by_cases hg : isGap g = true
        · rw [if_pos hg] at h
          split at h
          · -- nothing but blanks: the last of them is the name
            next hall =>
            rw [List.dropWhile_eq_nil_iff] at hall
            obtain ⟨b, hb, rfl⟩ := Option.map_eq_some_iff.1 h
            obtain ⟨init, rfl⟩ := List.getLast?_eq_some_iff.1 hb
            refine ⟨g :: init, rfl, by simp, ?_, by simp, Or.inl rfl⟩
            intro x hx
            rw [← isGap_iff]
            rcases List.mem_cons.1 hx with rfl | hx
            · exact hg
            · exact hall x (List.mem_append_left _ hx)
          · next hne =>
            obtain rfl := Option.some.inj h
            refine ⟨g :: rest.takeWhile isGap, ?_, by simp, ?_, hne, Or.inr ?_⟩
            · rw [List.cons_append, List.takeWhile_append_dropWhile]
            · intro x hx
              rw [← isGap_iff]
              rcases List.mem_cons.1 hx with rfl | hx
              · exact hg
              · exact List.mem_takeWhile_imp hx
            · intro b hb
              have hnot := List.head?_dropWhile_not isGap rest
              rw [Option.mem_def.1 hb] at hnot
              simp only at hnot
              rw [← isGap_iff, hnot]
              exact Bool.false_ne_true
        · rw [if_neg hg] at h
          contradiction
  · rintro ⟨gap, rfl, hgap, hsub, hne, hstop⟩
    cases gap with
    | nil => contradiction
    | cons g gap =>
        have hall : ∀ b ∈ gap, isGap b = true := fun b hb =>
          (isGap_iff b).2 (hsub b (List.mem_cons_of_mem g hb))
        rw [List.cons_append, name?, if_pos ((isGap_iff g).2 (hsub g List.mem_cons_self)),
          List.dropWhile_append_of_pos hall]
        rcases name with _ | ⟨b, rest⟩
        · contradiction
        · by_cases hb : isGap b = true
          · -- a blank name is a single byte
            rcases hstop with hlen | hblank
            · obtain rfl : rest = [] := by simpa using hlen
              rw [List.dropWhile_cons_of_pos hb, List.dropWhile_nil]
              simp
            · exact absurd ((isGap_iff b).1 hb) (hblank b rfl)
          · rw [List.dropWhile_cons_of_neg hb]

/-- A gap and something after it always leave a name. -/
theorem name?_append_ne_none {gap name : Bytes} (hgap : gap ≠ [])
    (hsub : ∀ b ∈ gap, b ∈ gapBytes) (hne : name ≠ []) : name? (gap ++ name) ≠ none := by
  cases gap with
  | nil => contradiction
  | cons g gap =>
      rw [List.cons_append, name?, if_pos ((isGap_iff g).2 (hsub g List.mem_cons_self))]
      split
      · have hlast : (gap ++ name).getLast? ≠ none := by simp [hne]
        simpa using hlast
      · simp

/-! ## The whole line -/

theorem utf8_open : utf8 "(" = [byte '('] := rfl

/-- The shape of a line is found in four cuts. -/
theorem ofLine?_eq_some_iff_cuts {t : Bytes} {shape : Shape} :
    ofLine? t = some shape ↔
      ∃ head, t = utf8 "predicate" ++ head ++ utf8 "(" ++ shape.body ++ utf8 ")" ∧
        byte '(' ∉ head ∧ name? head = some shape.name ∧ shape.body ≠ [] ∧
        byte '\n' ∉ shape.body := by
  constructor
  · intro h
    simp only [ofLine?, Option.bind_eq_bind, Option.bind_eq_some_iff] at h
    obtain ⟨rest, hrest, ⟨head, inner⟩, hcut, name, hname, body, hbody, h⟩ := h
    rw [Bytes.after?_eq_some_iff] at hrest
    obtain ⟨hopen, rfl⟩ := Bytes.cut?_eq_some_iff.1 hcut
    obtain rfl : inner = body ++ utf8 ")" := Bytes.before?_eq_some_iff.1 hbody
    by_cases hc : body = [] ∨ byte '\n' ∈ body
    · rw [if_pos hc] at h
      contradiction
    · rw [if_neg hc] at h
      obtain rfl := Option.some.inj h
      rw [not_or] at hc
      refine ⟨head, ?_, hopen, hname, hc.1, hc.2⟩
      rw [hrest, utf8_open]
      simp only [List.append_assoc, List.cons_append, List.nil_append]
  · rintro ⟨head, rfl, hopen, hname, hne, hfeed⟩
    have hrest : Bytes.after? (utf8 "predicate")
        (utf8 "predicate" ++ head ++ utf8 "(" ++ shape.body ++ utf8 ")") =
          some (head ++ byte '(' :: (shape.body ++ utf8 ")")) := by
      rw [Bytes.after?_eq_some_iff, utf8_open]
      simp only [List.append_assoc, List.cons_append, List.nil_append]
    have hcut : Bytes.cut? (byte '(') (head ++ byte '(' :: (shape.body ++ utf8 ")")) =
        some (head, shape.body ++ utf8 ")") :=
      Bytes.cut?_eq_some_iff.2 ⟨hopen, rfl⟩
    have hbody : Bytes.before? (utf8 ")") (shape.body ++ utf8 ")") = some shape.body :=
      Bytes.before?_eq_some_iff.2 rfl
    simp only [ofLine?, Option.bind_eq_bind, hrest, hcut, hname, hbody, Option.bind_some]
    rw [if_neg (not_or.2 ⟨hne, hfeed⟩)]

/-- **Shape found**: it is the reading with the longest gap. -/
theorem ofLine?_eq_some_iff {t : Bytes} {shape : Shape} :
    ofLine? t = some shape ↔ ∃ gap, GreedyReading t gap shape.name shape.body := by
  rw [ofLine?_eq_some_iff_cuts]
  constructor
  · rintro ⟨head, ht, hopen, hname, hne, hfeed⟩
    obtain ⟨gap, rfl, hgap, hsub, hname, hstop⟩ := name?_eq_some_iff.1 hname
    rw [List.mem_append, not_or] at hopen
    have hreading : Reading t gap shape.name shape.body :=
      ⟨by rw [ht, List.append_assoc _ gap], hgap, hsub, hname, hopen.2, hne, hfeed⟩
    exact ⟨gap, hreading.greedy_iff.2 hstop⟩
  · rintro ⟨gap, h⟩
    have hname := name?_eq_some_iff.2
      ⟨gap, rfl, h.gap_ne_nil, h.gap_subset, h.name_ne_nil, h.toReading.greedy_iff.1 h⟩
    refine ⟨gap ++ shape.name, ?_, h.toReading.open_not_mem_head, hname, h.body_ne_nil,
      h.feed_not_mem_body⟩
    rw [h.text, List.append_assoc _ gap]

/-- **Shape missing**: the line has no reading at all. -/
theorem ofLine?_eq_none_iff {t : Bytes} :
    ofLine? t = none ↔ ¬ ∃ gap name body, Reading t gap name body := by
  constructor
  · rintro hnone ⟨gap, name, body, h⟩
    obtain ⟨name', hname'⟩ := Option.ne_none_iff_exists'.1
      (name?_append_ne_none h.gap_ne_nil h.gap_subset h.name_ne_nil)
    have hsome : ofLine? t = some ⟨name', body⟩ := by
      refine ofLine?_eq_some_iff_cuts.2 ⟨gap ++ name, ?_, h.open_not_mem_head, hname',
        h.body_ne_nil, h.feed_not_mem_body⟩
      rw [h.text, List.append_assoc _ gap]
    rw [hnone] at hsome
    contradiction
  · intro h
    cases hshape : ofLine? t with
    | none => rfl
    | some shape =>
        obtain ⟨gap, hg⟩ := ofLine?_eq_some_iff.1 hshape
        exact absurd ⟨gap, shape.name, shape.body, hg.toReading⟩ h

end Shape

end ZincBind

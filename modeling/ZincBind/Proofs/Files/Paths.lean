import ZincBind.Files.Path
import ZincBind.Proofs.Text.Separators

/-!
# ZincBind.Proofs.Files.Paths

Clean paths and their spellings.  The elements of a clean path are never empty and hold no slash,
so a spelling falls back into them (`pieces_toBytes`).  Names put below a directory stay as they
are whatever the directory is called (`join_joined`); what cleaning does, it does to the directory.
-/

namespace ZincBind

namespace Path

open Bytes

/-- A path element that can be spelled: something without a slash. -/
structure IsElement (part : Bytes) : Prop where
  ne_nil : part ≠ []
  slash_not_mem : byte '/' ∉ part

/-- A path element that goes down one level. -/
structure IsPlain (part : Bytes) : Prop extends IsElement part where
  ne_here : part ≠ here
  ne_up : part ≠ up

theorem IsPlain.not_idle {part : Bytes} (h : IsPlain part) : isIdle part = false := by
  rw [isIdle, beq_false_of_ne h.ne_nil, beq_false_of_ne h.ne_here, Bool.or_self]

theorem isElement_up : IsElement up := ⟨by decide, by decide⟩

/-! ## Clean paths -/

/-- Adding an element to a clean path keeps what can be spelled. -/
theorem isElement_of_mem_push {absolute : Bool} {parts : List Bytes} {part : Bytes}
    (hparts : ∀ q ∈ parts, IsElement q) (hpart : byte '/' ∉ part) :
    ∀ q ∈ push absolute parts part, IsElement q := by
  intro q hq
  have hdrop : q ∈ parts.dropLast → IsElement q := fun h => hparts q (List.dropLast_subset parts h)
  have hadd : ∀ r, IsElement r → q ∈ parts ++ [r] → IsElement q := by
    intro r hr h
    cases List.mem_append.1 h with
    | inl h => exact hparts q h
    | inr h => rwa [List.mem_singleton.1 h]
  unfold push at hq
  split at hq
  · exact hparts q hq
  · next hidle =>
    split at hq
    · split at hq
      · exact hdrop hq
      · split at hq
        · exact hadd up isElement_up hq
        · exact hdrop hq
    · have hne : part ≠ [] := by
        intro hnil
        rw [hnil] at hidle
        contradiction
      exact hadd part ⟨hne, hpart⟩ hq

theorem isElement_of_mem_foldl_push {absolute : Bool} {parts rest : List Bytes}
    (hparts : ∀ q ∈ parts, IsElement q) (hrest : ∀ q ∈ rest, byte '/' ∉ q) :
    ∀ q ∈ rest.foldl (push absolute) parts, IsElement q := by
  induction rest generalizing parts with
  | nil => exact hparts
  | cons part rest ih =>
      rw [List.foldl_cons]
      exact ih (isElement_of_mem_push hparts (hrest part List.mem_cons_self)) fun q hq =>
        hrest q (List.mem_cons_of_mem part hq)

/-- The elements of a clean path can be spelled. -/
theorem isElement_of_mem_parts (spelling : Bytes) :
    ∀ q ∈ (ofBytes spelling).parts, IsElement q :=
  isElement_of_mem_foldl_push (by simp) fun _ => not_mem_of_mem_pieces

/-- Plain elements are added as they are. -/
theorem foldl_push_plain {absolute : Bool} {parts names : List Bytes}
    (h : ∀ n ∈ names, IsPlain n) : names.foldl (push absolute) parts = parts ++ names := by
  induction names generalizing parts with
  | nil => simp
  | cons n names ih =>
      have hn := h n List.mem_cons_self
      have hrest : ∀ m ∈ names, IsPlain m := fun m hm => h m (List.mem_cons_of_mem n hm)
      rw [List.foldl_cons, push_name hn.not_idle hn.ne_up, ih hrest, List.append_assoc,
        List.singleton_append]

/-! ## Spellings -/

/-- Elements joined by slashes do not begin with one. -/
theorem isAbsolute_joined {parts : List Bytes} (h : ∀ q ∈ parts, IsElement q) :
    isAbsolute (joined (utf8 "/") parts) = false := by
  cases parts with
  | nil => rfl
  | cons q qs =>
      have hq := h q List.mem_cons_self
      obtain ⟨b, bs, rfl⟩ := List.exists_cons_of_ne_nil hq.ne_nil
      have hb : b ≠ byte '/' := fun hb => hq.slash_not_mem (hb ▸ List.mem_cons_self)
      have hhead : (joined (utf8 "/") ((b :: bs) :: qs)).head? = some b := by
        cases qs with
        | nil => rfl
        | cons r rs => rfl
      rw [isAbsolute, hhead]
      simpa using hb

/-- A clean path begins with a slash exactly when it is absolute. -/
theorem isAbsolute_toBytes {p : Path} (h : ∀ q ∈ p.parts, IsElement q) :
    isAbsolute p.toBytes = p.absolute := by
  obtain ⟨absolute, parts⟩ := p
  cases absolute with
  | true => rfl
  | false =>
      cases parts with
      | nil => rfl
      | cons q qs => exact isAbsolute_joined h

/-- **Spelling**: cut at its slashes, a clean path that is not a root falls into its elements,
after an empty one if it is absolute. -/
theorem pieces_toBytes {p : Path} (hne : p.parts ≠ []) (h : ∀ q ∈ p.parts, IsElement q) :
    pieces (byte '/') p.toBytes = if p.absolute then [] :: p.parts else p.parts := by
  obtain ⟨absolute, parts⟩ := p
  have hparts : pieces (byte '/') (joined (utf8 "/") parts) = parts :=
    pieces_joined hne fun q hq => (h q hq).slash_not_mem
  cases absolute with
  | true =>
      show pieces (byte '/') (byte '/' :: joined (utf8 "/") parts) = [] :: parts
      rw [pieces, if_pos rfl, hparts]
  | false =>
      have hempty : parts.isEmpty = false := List.isEmpty_eq_false_iff.2 hne
      simp only [toBytes, hempty, Bool.false_eq_true, if_false]
      exact hparts

/-- **Below a directory**: plain names joined to a directory stay as they are behind the clean
form of the directory. -/
theorem join_joined (dir : Bytes) {names : List Bytes} (hne : names ≠ [])
    (h : ∀ n ∈ names, IsPlain n) :
    join dir (joined (utf8 "/") names) =
      toBytes ⟨isAbsolute dir, (ofBytes dir).parts ++ names⟩ := by
  have hpieces : pieces (byte '/') (joined (utf8 "/") names) = names :=
    pieces_joined hne fun n hn => (h n hn).slash_not_mem
  have hfull : (joined (utf8 "/") names).isEmpty = false := by
    rw [List.isEmpty_eq_false_iff]
    intro hnil
    rw [hnil, pieces_nil] at hpieces
    exact (h [] (hpieces ▸ List.mem_singleton_self [])).ne_nil rfl
  cases dir with
  | nil =>
      have habs := isAbsolute_joined fun n hn => (h n hn).toIsElement
      have hclean : ofBytes (joined (utf8 "/") names) = ⟨false, names⟩ := by
        rw [ofBytes, habs, hpieces, foldl_push_plain h, List.nil_append]
      simp only [join, List.isEmpty_nil, if_true, hfull, Bool.false_eq_true, if_false, clean,
        hclean]
      rfl
  | cons b bs =>
      have hhead : isAbsolute (b :: bs ++ byte '/' :: joined (utf8 "/") names) =
          isAbsolute (b :: bs) := rfl
      have hclean : ofBytes (b :: bs ++ byte '/' :: joined (utf8 "/") names) =
          ⟨isAbsolute (b :: bs), (ofBytes (b :: bs)).parts ++ names⟩ := by
        rw [ofBytes, hhead, pieces_append_cons, List.foldl_append, hpieces, foldl_push_plain h]
        rfl
      simp only [join, List.isEmpty_cons, Bool.false_eq_true, if_false, clean, hclean]

end Path

end ZincBind

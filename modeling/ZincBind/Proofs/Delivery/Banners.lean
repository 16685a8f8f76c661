import ZincBind.Delivery.Banner
import ZincBind.Proofs.Text.Glyphs
import ZincBind.Proofs.Text.Separators

/-!
# ZincBind.Proofs.Delivery.Banners

How wide a banner is and what it says.  Dashes and spaces are ASCII, so a row has the characters of
its text and one for each of them (`columns_center`), whatever stray bytes the text ends in.

To read a banner, the dashes on the outside are passed over, then one space on each side goes, and
what is left is the path (`path?_render`).  Dashes and spaces of the path itself stay: the spaces
around it stand between them and the row.
-/

namespace ZincBind

namespace Banner

open Bytes

/-! ## Counting characters -/

theorem columns_ascii_append {l : Bytes} (h : ∀ b ∈ l, b.toNat < 128) (r : Bytes) :
    columns (l ++ r) = l.length + columns r := by
  rw [columns, Glyph.decode_ascii_append h, List.length_append, List.length_map, columns]

theorem columns_append_ascii (l : Bytes) {r : Bytes} (h : ∀ b ∈ r, b.toNat < 128) :
    columns (l ++ r) = columns l + r.length := by
  have hhead : ∀ b ∈ r.head?, b.toNat < 128 := fun b hb => h b (List.mem_of_mem_head? hb)
  rw [columns, Glyph.decode_append hhead, Glyph.decode_ascii h, List.length_append,
    List.length_map, columns]

/-! ## The row -/

/-- Centring divides what the text leaves of the row, and an odd dash goes to the right. -/
theorem exists_center_eq (text : Bytes) :
    ∃ left right, center text =
        List.replicate left (byte '-') ++ text ++ List.replicate right (byte '-') ∧
      left + right = width - columns text ∧ left ≤ right ∧ right ≤ left + 1 :=
  ⟨(width - columns text) / 2, width - columns text - (width - columns text) / 2, rfl,
    by omega, by omega, by omega⟩

/-- A centred text is as wide as the row, or as the text if that is wider. -/
theorem columns_center (text : Bytes) : columns (center text) = max width (columns text) := by
  obtain ⟨left, right, hcenter, hsum, -, -⟩ := exists_center_eq text
  have hdash : ∀ n, ∀ b ∈ List.replicate n (byte '-'), b.toNat < 128 := by
    intro n b hb
    rw [List.eq_of_mem_replicate hb]
    decide
  rw [hcenter, columns_append_ascii _ (hdash right), columns_ascii_append (hdash left),
    List.length_replicate, List.length_replicate]
  omega

/-- The two spaces around a path are a character each. -/
theorem columns_spaced (path : Bytes) :
    columns (utf8 " " ++ path ++ utf8 " ") = columns path + 2 := by
  have hspace : ∀ b ∈ [byte ' '], b.toNat < 128 := List.forall_mem_singleton.2 (by decide)
  have hblank : utf8 " " = [byte ' '] := rfl
  rw [hblank, columns_append_ascii _ hspace, columns_ascii_append hspace, List.length_singleton]
  omega

/-! ## The path -/

/-- The path in a banner: without the dashes on the outside and one space on each side. -/
def path? (banner : Bytes) : Option Bytes := do
  let inner := stripEnd (· == byte '-') (banner.dropWhile (· == byte '-'))
  let rest ← after? (utf8 " ") inner
  before? (utf8 " ") rest

/-- A banner is a row of dashes with a path in it, a space on each side. -/
theorem exists_render_eq (path : Bytes) :
    ∃ left right, render path = List.replicate left (byte '-') ++
      (byte ' ' :: (path ++ [byte ' '])) ++ List.replicate right (byte '-') :=
  ⟨_, _, rfl⟩

/-- **Banners** say their paths. -/
theorem path?_render (path : Bytes) : path? (render path) = some path := by
  obtain ⟨left, right, hrender⟩ := exists_render_eq path
  have hdash : ∀ n, ∀ b ∈ List.replicate n (byte '-'), (b == byte '-') = true := by
    intro n b hb
    rw [List.eq_of_mem_replicate hb, beq_self_eq_true]
  have hspace : (byte ' ' == byte '-') = false := by decide
  -- the row ends where the spaces begin, so no dash of the path is stripped
  have hstrip : stripEnd (· == byte '-') (byte ' ' :: (path ++ [byte ' '])) =
      byte ' ' :: (path ++ [byte ' ']) := by
    refine stripEnd_eq_iff.2 ⟨[], (List.append_nil _).symm, by simp, ?_⟩
    intro b hb
    rw [← List.cons_append, List.getLast?_concat, Option.mem_some_iff] at hb
    rwa [← hb]
  have hinner : stripEnd (· == byte '-') ((render path).dropWhile (· == byte '-')) =
      utf8 " " ++ (path ++ utf8 " ") := by
    rw [hrender, List.append_assoc, List.dropWhile_append_of_pos (hdash left), List.cons_append,
      List.dropWhile_cons_of_neg (by simp [hspace]), ← List.cons_append,
      stripEnd_append (hdash right), hstrip]
    rfl
  rw [path?, hinner, after?_eq_some_iff.2 rfl, Option.bind_eq_bind, Option.bind_some,
    before?_eq_some_iff.2 rfl]

theorem render_injective : Function.Injective render := by
  intro p q h
  have hpath := congrArg path? h
  rw [path?_render, path?_render] at hpath
  exact Option.some.inj hpath

/-- **Banners** are centred, and distinct for distinct paths.  Characters are counted by the only
reading of a text.  A path of fifty-eight characters or more stands between its spaces alone; the
banner of a shorter one has sixty characters, with as many dashes on the left as on the right or one
less.  Without the dashes on the outside and one space on each side, a banner is its path. -/
theorem render_centred_invertible :
    (∀ text : Bytes, ∃ gs, (∀ hs, Glyph.Reading text hs ↔ hs = gs) ∧ columns text = gs.length) ∧
    (∀ path : Bytes, ∃ left right : Nat,
      render path = List.replicate left (byte '-') ++ utf8 " " ++ path ++ utf8 " " ++
        List.replicate right (byte '-') ∧
      (58 ≤ columns path ∧ left = 0 ∧ right = 0 ∨
        columns path < 58 ∧ columns (render path) = 60 ∧ left ≤ right ∧ right ≤ left + 1)) ∧
    (∀ path : Bytes, path? (render path) = some path) ∧
    Function.Injective render := by
  refine ⟨fun text => ?_, fun path => ?_, path?_render, render_injective⟩
  · exact ⟨Glyph.decode text, fun hs => Glyph.decode_eq_iff.symm.trans eq_comm, rfl⟩
  · obtain ⟨left, right, hrender, hsum, hle, hle'⟩ :=
      exists_center_eq (utf8 " " ++ path ++ utf8 " ")
    have hwidth : columns (render path) = max 60 (columns path + 2) := by
      rw [render, columns_center, columns_spaced, width]
    rw [columns_spaced, width] at hsum
    refine ⟨left, right, by rw [render, hrender]; simp only [List.append_assoc], ?_⟩
    by_cases hlong : 58 ≤ columns path
    · left
      omega
    · right
      omega

/-- A byte that begins no character counts as one, and the odd dash is on the right. -/
example : render [0xC3] = List.replicate 28 (byte '-') ++ [byte ' ', 0xC3, byte ' '] ++
    List.replicate 29 (byte '-') := by
  decide

end Banner

end ZincBind

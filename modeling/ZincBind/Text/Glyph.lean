import ZincBind.Bytes

/-!
# ZincBind.Text.Glyph

The characters of a byte text. A text need not be valid UTF-8, so its units are *glyphs*: a
character whose encoding stands there, or a stray byte that begins no encoding. Overlong forms,
surrogates and code points above U+10FFFF encode nothing, and each of their bytes is a stray of
its own.

Main statement: writing the glyphs of a text out again gives the text (`encode_decode`).
-/

namespace ZincBind

/-- One unit of a byte text. -/
inductive Glyph where
  /-- A character, written as its UTF-8 encoding. -/
  | char (c : Char)
  /-- A byte that begins no character. -/
  | stray (b : UInt8)
deriving DecidableEq, Repr

namespace Glyph

/-- The bytes a glyph stands for. -/
def bytes : Glyph → Bytes
  | .char c => String.utf8EncodeChar c
  | .stray b => [b]

/-- The bytes of a run of glyphs. -/
def encode (gs : List Glyph) : Bytes := gs.flatMap bytes

/-- The payload of a continuation byte. -/
def low6 (b : UInt8) : Nat := b.toNat % 64

/-- The code point that the lead byte and the bytes after it would spell, whether or not they
are well formed; a byte past the end counts as zero. -/
def codeAt : Bytes → Nat
  | [] => 0
  | a :: r =>
    let b := low6 (r.getD 0 0)
    let c := low6 (r.getD 1 0)
    let d := low6 (r.getD 2 0)
    if a < 0x80 then a.toNat
    else if a < 0xE0 then a.toNat % 32 * 64 + b
    else if a < 0xF0 then a.toNat % 16 * 4096 + b * 64 + c
    else a.toNat % 8 * 262144 + b * 4096 + c * 64 + d

/-- The character whose encoding the text begins with. The candidate is read off the lead byte
and accepted only if its own encoding is what stands there. -/
def front? (bs : Bytes) : Option Char :=
  let c := Char.ofNat (codeAt bs)
  if (String.utf8EncodeChar c).isPrefixOf bs then some c else none

/-- The glyphs of a text, after `skip` bytes that belong to a character already taken. -/
def decodeFrom : Nat → Bytes → List Glyph
  | _, [] => []
  | skip + 1, _ :: bs => decodeFrom skip bs
  | 0, b :: bs =>
    match front? (b :: bs) with
    | some c => .char c :: decodeFrom ((String.utf8EncodeChar c).length - 1) bs
    | none => .stray b :: decodeFrom 0 bs

/-- The glyphs of a text. -/
def decode (bs : Bytes) : List Glyph := decodeFrom 0 bs

/-- Whether the text is valid UTF-8: no byte of it is stray. -/
def isUtf8 (bs : Bytes) : Bool :=
  (decode bs).all fun
    | .char _ => true
    | .stray _ => false

/-- The character to show for a glyph: U+FFFD stands for a stray byte. -/
def shown : Glyph → Char
  | .char c => c
  | .stray _ => Char.ofNat 0xFFFD

/-- The text with every stray byte replaced by U+FFFD. -/
def repair (bs : Bytes) : Bytes := (decode bs).flatMap fun g => String.utf8EncodeChar g.shown

@[simp] theorem encode_nil : encode [] = [] := rfl

@[simp] theorem encode_cons (g : Glyph) (gs : List Glyph) :
    encode (g :: gs) = g.bytes ++ encode gs := by
  simp [encode]

@[simp] theorem encode_append (gs hs : List Glyph) :
    encode (gs ++ hs) = encode gs ++ encode hs := by
  simp [encode]

theorem front?_eq_some {bs : Bytes} {c : Char} (h : front? bs = some c) :
    ∃ rest, bs = String.utf8EncodeChar c ++ rest := by
  simp only [front?] at h
  split at h
  next hp =>
    obtain ⟨r, hr⟩ := List.isPrefixOf_iff_prefix.1 hp
    cases h
    exact ⟨r, hr.symm⟩
  next => simp at h

theorem utf8EncodeChar_ne_nil (c : Char) : String.utf8EncodeChar c ≠ [] := by
  unfold String.utf8EncodeChar
  simp only
  split
  · simp
  · split
    · simp
    · split <;> simp

/-- A character in front of a text takes its first byte and as many of the others as are left of the
encoding. -/
theorem cons_eq_of_front? {b : UInt8} {bs : Bytes} {c : Char} (h : front? (b :: bs) = some c) :
    b :: bs = String.utf8EncodeChar c ++ bs.drop ((String.utf8EncodeChar c).length - 1) := by
  obtain ⟨rest, hrest⟩ := front?_eq_some h
  cases hc : String.utf8EncodeChar c with
  | nil => exact absurd hc (utf8EncodeChar_ne_nil c)
  | cons x xs =>
      rw [hc, List.cons_append, List.cons.injEq] at hrest
      obtain ⟨rfl, rfl⟩ := hrest
      simp

theorem encode_decodeFrom (skip : Nat) (bs : Bytes) :
    encode (decodeFrom skip bs) = bs.drop skip := by
  fun_induction decodeFrom skip bs with
  | case1 => simp
  | case2 k b bs ih => simpa using ih
  | case3 b bs c h ih => rw [encode_cons, ih, bytes, List.drop_zero, ← cons_eq_of_front? h]
  | case4 b bs h ih => simp [ih, bytes]

/-- Writing out the glyphs of a text gives the text. -/
@[simp] theorem encode_decode (bs : Bytes) : encode (decode bs) = bs := by
  simp [decode, encode_decodeFrom]

end Glyph

end ZincBind

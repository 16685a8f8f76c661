import ZincBind.Bytes

/-!
# ZincBind.Declaration.Identifier

Names of predicates and of their arguments: an ASCII letter, then ASCII letters, digits and
underscores.
-/

namespace ZincBind

namespace Identifier

/-- An ASCII letter. -/
def isLetter (b : UInt8) : Bool :=
  (byte 'a' ≤ b && b ≤ byte 'z') || (byte 'A' ≤ b && b ≤ byte 'Z')

/-- An ASCII digit. -/
def isDigit (b : UInt8) : Bool := byte '0' ≤ b && b ≤ byte '9'

/-- A byte that may stand inside a name. -/
def isWord (b : UInt8) : Bool := isLetter b || isDigit b || b == byte '_'

/-- Whether a text is a name. -/
def isValid : Bytes → Bool
  | [] => false
  | b :: bs => isLetter b && bs.all isWord

/-- The name an argument is known by: a name of exactly two bytes keeps only the first, so `as`
and `bs` become `a` and `b`; every other name stays. -/
def shorten (name : Bytes) : Bytes := if name.length = 2 then name.take 1 else name

@[simp] theorem not_isValid_nil : isValid [] = false := rfl

/-- Shortening leaves no name of two bytes. -/
theorem length_shorten_ne_two (name : Bytes) : (shorten name).length ≠ 2 := by
  unfold shorten
  split
  · simp only [List.length_take]
    omega
  · assumption

end Identifier

end ZincBind

import ZincBind.Declaration.Identifier

/-!
# ZincBind.Document.Number

Which plain scalars are numbers. Integers are decimal, or binary, octal or hexadecimal with a
leading `0b`, `0o` or `0x`, or octal after a bare zero, and fit into 64 bits. Any other decimal
is a floating-point number unless it is too large for one.
-/

namespace ZincBind

namespace Document

/-- How wide an integer is. -/
inductive IntWidth where
  /-- It fits into 64 bits with a sign. -/
  | signed
  /-- It fits into 64 bits only without one. -/
  | unsigned
deriving DecidableEq, Repr

/-- The value of a digit in bases up to sixteen. -/
def digitValue? (b : UInt8) : Option Nat :=
  if byte '0' ≤ b ∧ b ≤ byte '9' then some (b - byte '0').toNat
  else if byte 'a' ≤ b ∧ b ≤ byte 'f' then some ((b - byte 'a').toNat + 10)
  else if byte 'A' ≤ b ∧ b ≤ byte 'F' then some ((b - byte 'A').toNat + 10)
  else none

/-- The number that digits of a base spell. -/
def natural? (base : Nat) (digits : Bytes) : Option Nat :=
  digits.foldlM
    (fun n b => do
      let d ← digitValue? b
      if d < base then some (n * base + d) else none)
    0

/-- Digits in a base that is given. -/
def digitsIn? (base : Nat) (digits : Bytes) : Option Nat :=
  if digits.isEmpty then none else natural? base digits

/-- An unsigned numeral whose base shows at its beginning. -/
def numeral? : Bytes → Option Nat
  | [] => none
  | z :: m :: d :: r =>
    if z = byte '0' then
      if m = byte 'x' ∨ m = byte 'X' then natural? 16 (d :: r)
      else if m = byte 'o' ∨ m = byte 'O' then natural? 8 (d :: r)
      else if m = byte 'b' ∨ m = byte 'B' then natural? 2 (d :: r)
      else natural? 8 (m :: d :: r)
    else natural? 10 (z :: m :: d :: r)
  | z :: r => if z = byte '0' then natural? 8 r else natural? 10 (z :: r)

/-- A sign, if there is one, and what follows it: whether the sign is a minus. -/
def sign? : Bytes → Option Bool × Bytes
  | b :: r =>
    if b = byte '-' then (some true, r) else if b = byte '+' then (some false, r)
    else (none, b :: r)
  | [] => (none, [])

/-- The width of an integer given by its sign and magnitude, if it has one. -/
def width? (sign : Option Bool) (n : Nat) : Option IntWidth :=
  if sign = some true then if n ≤ Nat.pow 2 63 then some .signed else none
  else if n < Nat.pow 2 63 then some .signed
  else if sign = none ∧ n < Nat.pow 2 64 then some .unsigned
  else none

/-- An integer whose digits are read by a given rule. -/
def integerBy? (read : Bytes → Option Nat) (bs : Bytes) : Option IntWidth := do
  let (sign, digits) := sign? bs
  let n ← read digits
  width? sign n

/-- The width of an integer. A sign may also stand between a binary or octal mark and its
digits. -/
def integer? (bs : Bytes) : Option IntWidth :=
  integerBy? numeral? bs <|>
  ((Bytes.after? (utf8 "0b") bs).bind (integerBy? (digitsIn? 2))) <|>
  ((Bytes.after? (utf8 "0o") bs).bind (integerBy? (digitsIn? 8)))

/-! ## Floating point -/

/-- A decimal: its digits as a number and the power of ten they are scaled by. -/
structure Decimal where
  /-- The digits without the point. -/
  digits : Nat
  /-- The power of ten. -/
  exponent : Int

/-- The exponent of a decimal: nothing, or a mark, an optional sign and digits. -/
def exponent? : Bytes → Option Int
  | [] => some 0
  | e :: r =>
    if e = byte 'e' ∨ e = byte 'E' then do
      let (sign, digits) := sign? r
      let n ← digitsIn? 10 digits
      some (if sign = some true then -(n : Int) else n)
    else none

/-- An unsigned decimal with digits before or after the point. -/
def unsignedDecimal? (bs : Bytes) : Option Decimal := do
  let whole := bs.takeWhile Identifier.isDigit
  let rest := bs.dropWhile Identifier.isDigit
  let (fraction, rest) := match rest with
    | p :: r =>
      if p = byte '.' then (r.takeWhile Identifier.isDigit, r.dropWhile Identifier.isDigit)
      else ([], rest)
    | [] => ([], [])
  if whole.isEmpty && fraction.isEmpty then none
  else
    let n ← natural? 10 (whole ++ fraction)
    let e ← exponent? rest
    some ⟨n, e - fraction.length⟩

/-- The least number that rounds to infinity: half a step above the largest double. -/
def overflowBound : Nat := Nat.pow 2 1024 - Nat.pow 2 970

/-- Whether a decimal is too large for a double. Far from the bound the number of digits tells. -/
def Decimal.isTooLarge (d : Decimal) : Bool :=
  let size := (Nat.toDigits 10 d.digits).length + d.exponent
  if d.digits = 0 then false
  else if size < 300 then false
  else if 320 < size then true
  else if 0 ≤ d.exponent then overflowBound ≤ d.digits * Nat.pow 10 d.exponent.toNat
  else overflowBound * Nat.pow 10 (-d.exponent).toNat ≤ d.digits

/-- Whether a text is a floating-point number. -/
def isFloat (bs : Bytes) : Bool :=
  match unsignedDecimal? (sign? bs).2 with
  | some d => !d.isTooLarge
  | none => false

/-- Whether underscores stand between digits only. -/
def underscoresSeparate : Bool → Bytes → Bool
  | _, [] => true
  | afterDigit, b :: r =>
    if b = byte '_' then
      afterDigit && r.head?.any Identifier.isDigit && underscoresSeparate false r
    else underscoresSeparate (Identifier.isDigit b) r

/-- The text without underscores. -/
def withoutUnderscores (bs : Bytes) : Bytes := bs.filter (· ≠ byte '_')

end Document

end ZincBind

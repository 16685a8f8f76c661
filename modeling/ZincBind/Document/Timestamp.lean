import ZincBind.Document.Number

/-!
# ZincBind.Document.Timestamp

Which plain scalars are timestamps: a date with a four-digit year, alone, or with a time of day
after `T` or `t` and a zone, or after spaces and no zone.
-/

namespace ZincBind

namespace Document

namespace Timestamp

/-- A number of one or two digits. -/
def short? : Bytes → Option (Nat × Bytes)
  | a :: b :: r =>
    if Identifier.isDigit a then
      if Identifier.isDigit b then
        some ((a - byte '0').toNat * 10 + (b - byte '0').toNat, r)
      else some ((a - byte '0').toNat, b :: r)
    else none
  | [a] => if Identifier.isDigit a then some ((a - byte '0').toNat, []) else none
  | [] => none

/-- A number of exactly two digits. -/
def two? : Bytes → Option (Nat × Bytes)
  | a :: b :: r =>
    if Identifier.isDigit a && Identifier.isDigit b then
      some ((a - byte '0').toNat * 10 + (b - byte '0').toNat, r)
    else none
  | _ => none

/-- A given byte. -/
def mark? (c : Char) : Bytes → Option Bytes
  | b :: r => if b = byte c then some r else none
  | [] => none

/-- Whether a year has a leap day. -/
def isLeap (year : Nat) : Bool := year % 4 == 0 && (year % 100 != 0 || year % 400 == 0)

/-- The number of days of a month. -/
def daysIn (year month : Nat) : Nat :=
  if month == 2 then if isLeap year then 29 else 28
  else if month == 4 || month == 6 || month == 9 || month == 11 then 30
  else 31

/-- A date of the calendar. -/
def date? (bs : Bytes) : Option Bytes := do
  let year ← natural? 10 (bs.take 4)
  if !(bs.take 4).all Identifier.isDigit || bs.length < 4 then none
  else
    let r ← mark? '-' (bs.drop 4)
    let (month, r) ← short? r
    let r ← mark? '-' r
    let (day, r) ← short? r
    if month == 0 || 12 < month || day == 0 || daysIn year month < day then none else some r

/-- A fraction of a second, if there is one. -/
def fraction : Bytes → Bytes
  | p :: d :: r =>
    if (p = byte '.' ∨ p = byte ',') ∧ Identifier.isDigit d then r.dropWhile Identifier.isDigit
    else p :: d :: r
  | bs => bs

/-- A time of day. -/
def clock? (bs : Bytes) : Option Bytes := do
  let (hour, r) ← short? bs
  let r ← mark? ':' r
  let (minute, r) ← short? r
  let r ← mark? ':' r
  let (second, r) ← short? r
  if 24 ≤ hour || 60 ≤ minute || 60 ≤ second then none else some (fraction r)

/-- A zone: `Z`, or a sign, hours and minutes. -/
def zone? : Bytes → Option Bytes
  | z :: r =>
    if z = byte 'Z' then some r
    else if z = byte '+' ∨ z = byte '-' then do
      let (hour, r) ← two? r
      let r ← mark? ':' r
      let (minute, r) ← two? r
      if 24 < hour || 60 < minute then none else some r
    else none
  | [] => none

/-- Whether a text is a timestamp. -/
def isValid (bs : Bytes) : Bool :=
  match date? bs with
  | none => false
  | some [] => true
  | some (sep :: r) =>
    if sep = byte 'T' ∨ sep = byte 't' then ((clock? r).bind zone?) == some []
    else if sep = byte ' ' then clock? (r.dropWhile (· == byte ' ')) == some []
    else false

end Timestamp

end Document

end ZincBind

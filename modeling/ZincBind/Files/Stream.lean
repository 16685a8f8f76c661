import ZincBind.Bytes

/-!
# ZincBind.Files.Stream

An input stream such as standard input: some bytes, and then its end or a failure.
-/

namespace ZincBind

/-- An input stream. -/
structure Stream where
  /-- What it gives. -/
  bytes : Bytes
  /-- What goes wrong after that, in words. -/
  failure : Option Bytes
deriving DecidableEq, Repr

/-- Everything the stream gives, or why it cannot be had. -/
def Stream.read (s : Stream) : Except Bytes Bytes :=
  match s.failure with
  | none => .ok s.bytes
  | some reason => .error reason

end ZincBind

import Crosslink.Text.Basic

namespace Crosslink

/-!
Bytes, and what can be wrong with bytes that are to be read as text.
-/

abbrev Bytes := List UInt8

structure Flaw where
  /-- The number of refused bytes. -/
  length : Nat
  /-- What is wrong with them. -/
  reason : Text
  deriving Repr, DecidableEq

namespace Bytes

/-- Read bytes one character after the other, leaving out so many bytes first.  A step
looks at the bytes from a position on, and gives a character with the number of bytes
that spell it.  A flaw comes with its position. -/
def decodeWith (step : Bytes → Except Flaw (Char × Nat)) (position : Nat) :
    Nat → Bytes → Except (Nat × Flaw) Text
  | _, [] => .ok []
  | skip + 1, _ :: rest => decodeWith step (position + 1) skip rest
  | 0, byte :: rest =>
    match step (byte :: rest) with
    | .error flaw => .error (position, flaw)
    | .ok (c, used) =>
      match decodeWith step (position + 1) (used - 1) rest with
      | .error fault => .error fault
      | .ok text => .ok (c :: text)

end Bytes

end Crosslink

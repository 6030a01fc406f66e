import Crosslink.Text.Bytes

namespace Crosslink
namespace Utf16

/-!
Text in UTF-16.  A character is one number of sixteen bits or a pair of them, and a mark
in front tells in which order the two bytes of each number stand.
-/

/-- The order of the two bytes of a number. -/
inductive Order where
  /-- The lower byte comes first. -/
  | little
  /-- The higher byte comes first. -/
  | big
  deriving Repr, DecidableEq

def Order.name : Order → Text
  | little => "utf-16-le"
  | big => "utf-16-be"

/-- The number that two bytes spell. -/
def Order.unit (order : Order) (a b : UInt8) : Nat :=
  match order with
  | little => b.toNat * 0x100 + a.toNat
  | big => a.toNat * 0x100 + b.toNat

/-- The number is the first of a pair. -/
def isHigh (unit : Nat) : Bool :=
  0xD800 ≤ unit && unit < 0xDC00

/-- The number is the second of a pair. -/
def isLow (unit : Nat) : Bool :=
  0xDC00 ≤ unit && unit < 0xE000

/-- Read the character that a first number of a pair begins. -/
def stepPair (order : Order) (high : Nat) (rest : Bytes) : Except Flaw (Char × Nat) :=
  match rest with
  | a :: b :: _ =>
    let low := order.unit a b
    if isLow low then
      .ok (Char.ofNat (0x10000 + (high - 0xD800) * 0x400 + (low - 0xDC00)), 4)
    else .error { length := 2, reason := "illegal UTF-16 surrogate" }
  | _ => .error { length := 2 + rest.length, reason := "unexpected end of data" }

def step (order : Order) : Bytes → Except Flaw (Char × Nat)
  | a :: b :: rest =>
    let unit := order.unit a b
    if isHigh unit then stepPair order unit rest
    else if isLow unit then .error { length := 2, reason := "illegal encoding" }
    else .ok (Char.ofNat unit, 2)
  | bytes => .error { length := bytes.length, reason := "truncated data" }

/-- The order that a mark in front tells, and the bytes behind it. -/
def marked? : Bytes → Option (Order × Bytes)
  | 0xFF :: 0xFE :: rest => some (.little, rest)
  | 0xFE :: 0xFF :: rest => some (.big, rest)
  | _ => none

/-- The two bytes of a number, the lower one first. -/
def unitBytes (unit : Nat) : Bytes :=
  [UInt8.ofNat (unit % 0x100), UInt8.ofNat (unit / 0x100)]

/-- The bytes of a character, the lower one of each number first. -/
def encodeChar (c : Char) : Bytes :=
  if c.toNat < 0x10000 then unitBytes c.toNat
  else
    let code := c.toNat - 0x10000
    unitBytes (0xD800 + code / 0x400) ++ unitBytes (0xDC00 + code % 0x400)

/-- The bytes of a text behind the mark of their order. -/
def encode (text : Text) : Bytes :=
  0xFF :: 0xFE :: text.flatMap encodeChar

end Utf16

end Crosslink

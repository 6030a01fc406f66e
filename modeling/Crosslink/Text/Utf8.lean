import Crosslink.Text.Bytes

namespace Crosslink
namespace Utf8

/-!
Text in UTF-8.  A character takes one to four bytes; the first byte tells how many, and
the following ones lie in a range that keeps out overlong spellings, halves of pairs and
numbers beyond the last character.
-/

/-- A byte that can follow the first one of a character. -/
def isTail (byte : UInt8) : Bool :=
  0x80 ≤ byte && byte < 0xC0

/-- The number of bytes of the character that a byte begins. -/
def lengthOf (first : UInt8) : Nat :=
  if first < 0x80 then 1
  else if first < 0xC2 then 0
  else if first < 0xE0 then 2
  else if first < 0xF0 then 3
  else if first < 0xF5 then 4
  else 0

/-- A byte that can stand second behind a first one. -/
def isSecond (first second : UInt8) : Bool :=
  isTail second &&
    (if first = 0xE0 then 0xA0 ≤ second
    else if first = 0xED then second < 0xA0
    else if first = 0xF0 then 0x90 ≤ second
    else if first = 0xF4 then second < 0x90
    else true)

/-- The number of following bytes that stand where they can, in front of the first that
does not. -/
def soundTail (first : UInt8) : Bytes → Nat
  | [] => 0
  | second :: rest =>
    if isSecond first second then (rest.takeWhile isTail).length + 1 else 0

/-- The number of a character from its first byte and the following ones. -/
def codeOf (length : Nat) (first : UInt8) (tail : Bytes) : Nat :=
  let lead := if length = 2 then first.toNat % 0x20 else first.toNat % (0x100 >>> (length + 1))
  tail.foldl (fun code byte => code * 0x40 + byte.toNat % 0x40) lead

def step : Bytes → Except Flaw (Char × Nat)
  | [] => .error { length := 0, reason := "unexpected end of data" }
  | first :: rest =>
    let length := lengthOf first
    if length = 0 then .error { length := 1, reason := "invalid start byte" }
    else if length = 1 then .ok (Char.ofNat first.toNat, 1)
    else
      let tail := rest.take (length - 1)
      let sound := soundTail first tail
      if sound = length - 1 then .ok (Char.ofNat (codeOf length first tail), length)
      else if sound = tail.length then
        .error { length := tail.length + 1, reason := "unexpected end of data" }
      else .error { length := sound + 1, reason := "invalid continuation byte" }

def decode (bytes : Bytes) : Except (Nat × Flaw) Text :=
  Bytes.decodeWith step 0 0 bytes

def encodeChar (c : Char) : Bytes :=
  let code := c.toNat
  let tail (place : Nat) : UInt8 := UInt8.ofNat (0x80 + code / place % 0x40)
  if code < 0x80 then [UInt8.ofNat code]
  else if code < 0x800 then [UInt8.ofNat (0xC0 + code / 0x40), tail 1]
  else if code < 0x10000 then [UInt8.ofNat (0xE0 + code / 0x1000), tail 0x40, tail 1]
  else [UInt8.ofNat (0xF0 + code / 0x40000), tail 0x1000, tail 0x40, tail 1]

def encode (text : Text) : Bytes :=
  text.flatMap encodeChar

/-- The number of bytes of a text. -/
def length (text : Text) : Nat :=
  (encode text).length

end Utf8

end Crosslink

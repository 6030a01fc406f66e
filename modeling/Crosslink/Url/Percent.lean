import Crosslink.Text.Letter

namespace Crosslink
namespace Url

/-!
Percent-encoded bytes, read back as UTF-8 for display.  Characters that mean
something in a URL stay encoded, and bytes that are not UTF-8 become replacement
characters.
-/

/-- The value of a hexadecimal digit in either case. -/
def hexDigit? (c : Char) : Option Nat :=
  if isAsciiDigit c then some (c.toNat - '0'.toNat)
  else if 'a' ≤ c && c ≤ 'f' then some (c.toNat - 'a'.toNat + 10)
  else if 'A' ≤ c && c ≤ 'F' then some (c.toNat - 'A'.toNat + 10)
  else none

/-- Characters that stay encoded. -/
def reserved : Text := ";/?:@&=+$,#%"

/-- An ASCII character that was encoded, as it is shown. -/
def shown (code : Nat) : Text :=
  let c := Char.ofNat code
  if reserved.contains c then
    ['%', (Nat.digitChar (code / 16)).toUpper, (Nat.digitChar (code % 16)).toUpper]
  else [c]

def continues (byte : Nat) : Bool :=
  byte / 64 == 2

/-- A character given by its bytes, which must be the shortest form of its code; else
one replacement character for each byte. -/
def character (size least code : Nat) : Text :=
  if least ≤ code && code ≤ 0x10FFFF && !(0xD800 ≤ code && code ≤ 0xDFFF) then
    [Char.ofNat code]
  else List.replicate size '\uFFFD'

/-- So many bytes that continue a character come first. -/
def continued (count : Nat) (bytes : List Nat) : Bool :=
  count ≤ bytes.length && (bytes.take count).all continues

/-- The code whose first bits are given and whose others stand in so many bytes. -/
def code (first count : Nat) (bytes : List Nat) : Nat :=
  (bytes.take count).foldl (fun value byte => value * 64 + byte % 64) first

/-- Show a run of encoded bytes, passing over the given number of them first. -/
def showBytes : Nat → List Nat → Text
  | _, [] => []
  | passed + 1, _ :: rest => showBytes passed rest
  | 0, byte :: rest =>
    if byte < 0x80 then shown byte ++ showBytes 0 rest
    else if byte / 32 == 6 && continued 1 rest then
      character 2 0x80 (code (byte % 32) 1 rest) ++ showBytes 1 rest
    else if byte / 16 == 14 && continued 2 rest then
      character 3 0x800 (code (byte % 16) 2 rest) ++ showBytes 2 rest
    else if byte / 8 == 30 && continued 3 rest then
      character 4 0x10000 (code (byte % 8) 3 rest) ++ showBytes 3 rest
    else '\uFFFD' :: showBytes 0 rest

/-- The encoded byte that a text begins with, and what follows it. -/
def byte? : Text → Option (Nat × Text)
  | '%' :: high :: low :: rest =>
    match hexDigit? high, hexDigit? low with
    | some h, some l => some (h * 16 + l, rest)
    | _, _ => none
  | _ => none

/-- Read a text back; `bytes` are the encoded bytes just passed, the last in front. -/
def decodeFrom : Nat → List Nat → Text → Text
  | 0, bytes, text => showBytes 0 bytes.reverse ++ text
  | fuel + 1, bytes, text =>
    match byte? text with
    | some (byte, rest) => decodeFrom fuel (byte :: bytes) rest
    | none =>
      match text with
      | [] => showBytes 0 bytes.reverse
      | c :: rest => showBytes 0 bytes.reverse ++ c :: decodeFrom fuel [] rest

/-- Read the encoded bytes of a text back for display. -/
def decode (text : Text) : Text :=
  decodeFrom (text.length + 1) [] text

end Url

end Crosslink

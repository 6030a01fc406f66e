import Crosslink.Files.Failure
import Crosslink.Text.Utf16
import Crosslink.Text.Utf8

namespace Crosslink

/-!
The encodings in which files hold their text.
-/

/-- How a file holds its text. -/
inductive Encoding where
  | utf8
  | latin1
  | utf16
  deriving Repr, DecidableEq

namespace Encoding

def all : List Encoding := [utf8, latin1, utf16]

def name : Encoding → Text
  | utf8 => "utf-8"
  | latin1 => "latin-1"
  | utf16 => "utf-16"

def ofName? (text : Text) : Option Encoding :=
  all.find? fun encoding => encoding.name = text

def undecodable (encoding : Text) (bytes : Bytes) (position : Nat) (flaw : Flaw) : Failure :=
  .undecodable
    { encoding, start := position, reason := flaw.reason
      refused := ((bytes.drop position).take flaw.length).map UInt8.toNat }

/-- Read bytes in UTF-16.  Bytes without a mark are read all the same, to tell what else
may be wrong with them, but are refused in the end. -/
def decodeUtf16 (bytes : Bytes) : Except Failure Text :=
  match Utf16.marked? bytes with
  | some (order, rest) =>
    match Bytes.decodeWith (Utf16.step order) 2 0 rest with
    | .ok text => .ok text
    | .error (position, flaw) => .error (undecodable order.name bytes position flaw)
  | none =>
    match Bytes.decodeWith (Utf16.step .little) 0 0 bytes with
    | .ok text =>
      if text.isEmpty then .ok [] else .error (.unmarked "UTF-16 stream does not start with BOM")
    | .error (position, flaw) =>
      .error (undecodable Utf16.Order.little.name bytes position flaw)

def decode (encoding : Encoding) (bytes : Bytes) : Except Failure Text :=
  match encoding with
  | utf8 =>
    match Utf8.decode bytes with
    | .ok text => .ok text
    | .error (position, flaw) => .error (undecodable encoding.name bytes position flaw)
  | latin1 => .ok (bytes.map fun byte => Char.ofNat byte.toNat)
  | utf16 => decodeUtf16 bytes

/-- A character that one byte can hold. -/
def isNarrow (c : Char) : Bool :=
  c.toNat < 0x100

def encode (encoding : Encoding) (text : Text) : Except Failure Bytes :=
  match encoding with
  | utf8 => .ok (Utf8.encode text)
  | utf16 => .ok (Utf16.encode text)
  | latin1 =>
    match text.dropWhile isNarrow with
    | [] => .ok (text.map fun c => UInt8.ofNat c.toNat)
    | wide =>
      .error (.unencodable
        { encoding := encoding.name, start := text.length - wide.length
          refused := wide.takeWhile fun c => !isNarrow c
          reason := "ordinal not in range(256)" })

end Encoding

end Crosslink

import Crosslink.Data.Value
import Crosslink.Number.Decimal

namespace Crosslink
namespace Json

/-!
Writing structured data as JSON, on one line or with a line for every item, with all
characters as they are or with ASCII characters alone.
-/

/-- How JSON is laid out. -/
structure Layout where
  /-- The number of spaces that each level is moved in by, if every item has its own
  line. -/
  indent? : Option Nat
  /-- Characters outside ASCII are escaped. -/
  asciiOnly : Bool
  deriving Repr, DecidableEq

/-- Everything on one line in ASCII. -/
def Layout.compact : Layout where
  indent? := none
  asciiOnly := true

/-- A line for every item, and every character as it is. -/
def Layout.readable : Layout where
  indent? := some 2
  asciiOnly := false

/-- An escape of four hexadecimal digits. -/
def unitEscape (unit : Nat) : Text :=
  let digit (place : Nat) : Char := Nat.digitChar (unit / place % 16)
  ['\\', 'u', digit 4096, digit 256, digit 16, digit 1]

/-- The escape of a character, two of them for a character beyond sixteen bits. -/
def charEscape (c : Char) : Text :=
  if c.toNat < 0x10000 then unitEscape c.toNat
  else
    let code := c.toNat - 0x10000
    unitEscape (0xD800 + code / 0x400) ++ unitEscape (0xDC00 + code % 0x400)

def quotedChar (layout : Layout) (c : Char) : Text :=
  match c with
  | '"' => ['\\', '"']
  | '\\' => ['\\', '\\']
  | '\n' => ['\\', 'n']
  | '\r' => ['\\', 'r']
  | '\t' => ['\\', 't']
  | '\x0c' => ['\\', 'f']
  | '\x08' => ['\\', 'b']
  | c =>
    if c < ' ' || (layout.asciiOnly && '~' < c) then charEscape c else [c]

def quotedText (layout : Layout) (text : Text) : Text :=
  '"' :: text.flatMap (quotedChar layout) ++ ['"']

/-- A floating-point number. -/
def numberText : Double → Text
  | .finite negative mantissa exponent => Double.finiteText negative mantissa exponent
  | .infinite negative => Double.signText negative ++ ("Infinity" : Text)
  | .undefined => "NaN"

/-- What stands in front of an item of a level. -/
def lineStart (layout : Layout) (level : Nat) : Text :=
  match layout.indent? with
  | some indent => '\n' :: List.replicate (indent * level) ' '
  | none => []

/-- What stands between two items of a level. -/
def separator (layout : Layout) (level : Nat) : Text :=
  match layout.indent? with
  | some _ => ',' :: lineStart layout level
  | none => [',', ' ']

/-- Items of the next level between an opening and a closing character. -/
def enclosed (layout : Layout) (level : Nat) (opening closing : Char) (items : List Text) :
    Text :=
  if items.isEmpty then [opening, closing]
  else
    opening :: lineStart layout (level + 1)
      ++ Text.join (separator layout (level + 1)) items ++ lineStart layout level
      ++ [closing]

mutual

def valueText (layout : Layout) (level : Nat) : Value → Text
  | .null => "null"
  | .boolean true => "true"
  | .boolean false => "false"
  | .integer n => Text.ofInt n
  | .number x => numberText x
  | .text t => quotedText layout t
  | .list items => enclosed layout level '[' ']' (itemTexts layout (level + 1) items)
  | .record fields => enclosed layout level '{' '}' (fieldTexts layout (level + 1) fields)

def itemTexts (layout : Layout) (level : Nat) : List Value → List Text
  | [] => []
  | item :: rest => valueText layout level item :: itemTexts layout level rest

def fieldTexts (layout : Layout) (level : Nat) : List (Text × Value) → List Text
  | [] => []
  | (name, value) :: rest =>
    (quotedText layout name ++ [':', ' '] ++ valueText layout level value)
      :: fieldTexts layout level rest

end

def print (layout : Layout) (value : Value) : Text :=
  valueText layout 0 value

end Json

end Crosslink

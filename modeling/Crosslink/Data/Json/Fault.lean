import Crosslink.Text.Basic

namespace Crosslink
namespace Json

/-!
What can be wrong with a text that is read as JSON, and where.
-/

/-- Why the text stops being JSON. -/
inductive Reason where
  | valueExpected
  | nameExpected
  | colonExpected
  | commaExpected
  | unterminatedText
  | controlCharacter
  | badEscape
  | badUnicodeEscape
  | extraData
  | byteOrderMark
  deriving Repr, DecidableEq

def Reason.message : Reason → Text
  | valueExpected => "Expecting value"
  | nameExpected => "Expecting property name enclosed in double quotes"
  | colonExpected => "Expecting ':' delimiter"
  | commaExpected => "Expecting ',' delimiter"
  | unterminatedText => "Unterminated string starting at"
  | controlCharacter => "Invalid control character at"
  | badEscape => "Invalid \\escape"
  | badUnicodeEscape => "Invalid \\uXXXX escape"
  | extraData => "Extra data"
  | byteOrderMark => "Unexpected UTF-8 BOM (decode using utf-8-sig)"

/-- What is wrong with a text. -/
inductive Fault where
  /-- It stops being JSON before so many last characters. -/
  | misplaced (reason : Reason) (remaining : Nat)
  /-- It holds an integer of more digits than are read. -/
  | tooManyDigits (count : Nat)
  /-- A text in it holds half of a pair that stands for one character, and not the other. -/
  | unpaired
  deriving Repr, DecidableEq

/-- Integers have at most so many digits. -/
def digitLimit : Nat := 4300

namespace Fault

/-- A position as a line, a column and a number of characters before it. -/
def placeText (text : Text) (position : Nat) : Text :=
  let front := text.take position
  let line := front.count '\n' + 1
  let column := (front.reverse.takeWhile (· != '\n')).length + 1
  ("line " : Text) ++ Text.ofNat line ++ (" column " : Text) ++ Text.ofNat column
    ++ (" (char " : Text) ++ Text.ofNat position ++ [')']

def message (text : Text) : Fault → Text
  | misplaced reason remaining =>
    reason.message ++ (": " : Text) ++ placeText text (text.length - remaining)
  | tooManyDigits count =>
    ("Exceeds the limit (" : Text) ++ Text.ofNat digitLimit
      ++ (" digits) for integer string conversion: value has " : Text) ++ Text.ofNat count
      ++ (" digits; use sys.set_int_max_str_digits() to increase the limit" : Text)
  | unpaired =>
    "Input should be a valid string, unable to parse raw data as a unicode string"

end Fault

end Json

end Crosslink

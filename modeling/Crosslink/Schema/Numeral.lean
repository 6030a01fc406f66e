import Crosslink.Text.Blank

namespace Crosslink
namespace Numeral

/-!
Integers that are spelled out in a text.  Space around the digits, a sign, zeros in
front, single underscores between digits and a fractional part of nothing but zeros are
allowed.
-/

/-- A space for numerals: a blank character other than the information separators. -/
def isSpace (c : Char) : Bool :=
  isBlank c && !(0x1C ≤ c.toNat && c.toNat ≤ 0x1F)

/-- Without the space at both ends. -/
def trim (text : Text) : Text :=
  Text.dropEndWhile isSpace (text.dropWhile isSpace)

def sign : Text → Bool × Text
  | '-' :: rest => (true, rest)
  | '+' :: rest => (false, rest)
  | text => (false, text)

/-- Without a fractional part of nothing but zeros. -/
def wholePart (text : Text) : Text :=
  match Text.fromFirst '.' text with
  | _ :: fraction => if fraction.all (· == '0') then text.before '.' else text
  | [] => text

/-- Read digits that may be separated by single underscores. -/
def digits? (total : Nat) : Text → Option Nat
  | [] => none
  | [c] => if c.isDigit then some (total * 10 + (c.toNat - '0'.toNat)) else none
  | c :: '_' :: rest =>
    if c.isDigit then digits? (total * 10 + (c.toNat - '0'.toNat)) rest else none
  | c :: rest =>
    if c.isDigit then digits? (total * 10 + (c.toNat - '0'.toNat)) rest else none

/-- A numeral has at most so many characters. -/
def lengthLimit : Nat := 4300

/-- The integer that a text spells, if it spells one. -/
def toInt? (text : Text) : Option Int :=
  let (negative, rest) := sign (trim text)
  (digits? 0 (wholePart rest)).map fun n => if negative then -(n : Int) else n

end Numeral

end Crosslink

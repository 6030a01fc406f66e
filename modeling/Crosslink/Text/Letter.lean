import Crosslink.Text.Basic

namespace Crosslink

/-!
Latin letters without regard to case.  Besides the capitals, four characters
outside ASCII share a lower or upper case form with an ASCII letter: the long s,
the Kelvin sign and the dotted capital and dotless small i.  They count as the
letter they share the form with.
-/

/-- The lower-case Latin letter that a character stands for, the character itself
if there is none. -/
def foldLetter (c : Char) : Char :=
  if 'A' ≤ c && c ≤ 'Z' then Char.ofNat (c.toNat + 32)
  else if c = '\u017F' then 's'
  else if c = '\u212A' then 'k'
  else if c = '\u0130' || c = '\u0131' then 'i'
  else c

def isLatin (c : Char) : Bool :=
  'a' ≤ foldLetter c && foldLetter c ≤ 'z'

def isAsciiLetter (c : Char) : Bool :=
  ('a' ≤ c && c ≤ 'z') || ('A' ≤ c && c ≤ 'Z')

def isAsciiDigit (c : Char) : Bool :=
  '0' ≤ c && c ≤ '9'

namespace Text

/-- What follows a prefix spelled in either case; the prefix is given in small
letters. -/
def afterFolded? : Text → Text → Option Text
  | [], text => some text
  | _ :: _, [] => none
  | p :: start, c :: rest => if foldLetter c = p then afterFolded? start rest else none

/-- The text begins with a prefix spelled in either case. -/
def startsWithFolded (text start : Text) : Bool :=
  (afterFolded? start text).isSome

end Text

end Crosslink

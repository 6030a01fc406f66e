import Crosslink.Text.Blank

namespace Crosslink
namespace Markup

/-!
The text under a scanner, with access by position.  A scan moves a position
forward; one that may go wrong hands back the position it stopped at, or nothing.
-/

/-- A text with access by position. -/
abbrev Source := Array Char

namespace Source

/-- The characters between two positions. -/
def between (source : Source) (start stop : Nat) : Text :=
  (source.extract start stop).toList

def has (source : Source) (position : Nat) (c : Char) : Bool :=
  source[position]? == some c

def passUpTo (source : Source) (test : Char → Bool) : Nat → Nat → Nat
  | 0, position => position
  | most + 1, position =>
    match source[position]? with
    | some c => if test c then passUpTo source test most (position + 1) else position
    | none => position

/-- The first position at or after a given one, and at most `stop`, whose character
fails a test. -/
def pass (source : Source) (test : Char → Bool) (stop position : Nat) : Nat :=
  source.passUpTo test (stop - position) position

/-- Go back over at most so many characters that satisfy a test. -/
def passBackUpTo (source : Source) (test : Char → Bool) : Nat → Nat → Nat
  | 0, position => position
  | most + 1, position =>
    match source[position - 1]? with
    | some c => if test c then passBackUpTo source test most (position - 1) else position
    | none => position

/-- The last position at or before a given one, and at least `floor`, that is not
preceded by a character which satisfies a test. -/
def passBack (source : Source) (test : Char → Bool) (floor position : Nat) : Nat :=
  source.passBackUpTo test (position - floor) position

/-- Position of the first occurrence of a character at or after a given position. -/
def find? (source : Source) (c : Char) (position : Nat) : Option Nat :=
  let found := source.pass (· != c) source.size position
  if found < source.size then some found else none

end Source

/-- A space or a tab; no other character indents or separates inside a line. -/
def isSpace (c : Char) : Bool :=
  c = ' ' || c = '\t'

def isSpaceOrBreak (c : Char) : Bool :=
  isSpace c || c = '\n'

end Markup

end Crosslink

import Crosslink.Text.Basic

namespace Crosslink

/-!
Blank characters in the sense of the Unicode property White_Space together with
the four information separators.  Trimming and the whitespace class of every
pattern in this library are this one set.
-/

/-- The ranges of blank characters, in order and without overlap. -/
def blankRanges : List (Nat × Nat) :=
  [(0x09, 0x0D), (0x1C, 0x20), (0x85, 0x85), (0xA0, 0xA0), (0x1680, 0x1680),
   (0x2000, 0x200A), (0x2028, 0x2029), (0x202F, 0x202F), (0x205F, 0x205F),
   (0x3000, 0x3000)]

/-- A character lies in one of the given closed ranges of code points. -/
def inRanges (ranges : List (Nat × Nat)) (c : Char) : Bool :=
  ranges.any fun range => range.1 ≤ c.toNat && c.toNat ≤ range.2

/-- A blank character separates words and is dropped by trimming. -/
def isBlank (c : Char) : Bool :=
  inRanges blankRanges c

namespace Text

/-- Drop blank characters at the beginning. -/
def trimStart (text : Text) : Text :=
  text.dropWhile isBlank

def trimEnd (text : Text) : Text :=
  text.dropEndWhile isBlank

/-- Drop blank characters at both ends. -/
def trim (text : Text) : Text :=
  text.trimStart.trimEnd

end Text

end Crosslink

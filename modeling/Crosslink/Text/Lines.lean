import Crosslink.Text.Basic

namespace Crosslink
namespace Text

/-!
The lines of a text for line-based work.  A line ends at a line feed, and a carriage
return right before it belongs to the line break; alone it is a character like any
other.
-/

/-- Put a character in front of the first of some lines. -/
def consLine (c : Char) : List Text → List Text
  | [] => [[c]]
  | line :: rest => (c :: line) :: rest

/-- Cut a text into its lines; there is always at least one. -/
def splitLines : Text → List Text
  | [] => [[]]
  | '\r' :: '\n' :: rest => [] :: splitLines rest
  | '\n' :: rest => [] :: splitLines rest
  | c :: rest => consLine c (splitLines rest)

/-- The text has a line break that begins with a carriage return. -/
def hasWideBreak (text : Text) : Bool :=
  (find? ['\r', '\n'] text).isSome

/-- The line break to join lines with: the wide one if the text has any. -/
def lineBreak (text : Text) : Text :=
  if hasWideBreak text then ['\r', '\n'] else ['\n']

end Text

end Crosslink

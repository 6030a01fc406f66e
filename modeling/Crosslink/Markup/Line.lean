import Crosslink.Markup.Source

namespace Crosslink
namespace Markup

/-!
The lines of a document as the block structure sees them.  A container takes its
marks off the front of its lines by moving their beginning, so a line carries,
besides where it lies, the column at which its text begins and the column at which
its beginning stands; tabs go to every fourth column.
-/

/-- A line inside the containers opened so far. -/
structure Line where
  /-- Where the line begins, behind the marks of its containers. -/
  start : Nat
  /-- Where the line ends, before its line break. -/
  stop : Nat
  /-- The number of indenting characters at the beginning. -/
  shift : Nat
  /-- The indentation in columns; negative on a line that continues a paragraph
  without the marks of its container. -/
  indent : Int
  /-- The column of the beginning, where tabs are counted from. -/
  column : Int
  deriving Repr, DecidableEq

namespace Line

def text (line : Line) : Nat :=
  line.start + line.shift

/-- The line holds nothing but indentation. -/
def isEmpty (line : Line) : Bool :=
  line.stop ≤ line.text

end Line

/-- How far a tab reaches that begins at a column. -/
def tabWidth (column : Int) : Int :=
  4 - column % 4

/-- Pass spaces and tabs, at most so many, from a position and an offset in columns;
tabs are counted from `column`. -/
def passIndent (source : Source) (column : Int) : Nat → Nat → Int → Nat × Int
  | 0, position, offset => (position, offset)
  | most + 1, position, offset =>
    if source.has position '\t' then
      passIndent source column most (position + 1) (offset + tabWidth (offset + column))
    else if source.has position ' ' then passIndent source column most (position + 1) (offset + 1)
    else (position, offset)

def Line.between (source : Source) (start stop : Nat) : Line :=
  let (position, offset) := passIndent source 0 (stop - start) start 0
  { start, stop, shift := position - start, indent := offset, column := 0 }

/-- Where lines end: before each line break, and at the end of a text whose last line
has none, unless nothing but indentation stands there. -/
def lineEnds (source : Source) : Nat → Nat → Nat → List (Nat × Nat)
  | 0, _, _ => []
  | fuel + 1, start, position =>
    match source[position]? with
    | some c =>
      if c = '\n' then (start, position) :: lineEnds source fuel (position + 1) (position + 1)
      else lineEnds source fuel start (position + 1)
    | none => if source.pass isSpace position start < position then [(start, position)] else []

def linesOf (source : Source) : Array Line :=
  ((lineEnds source (source.size + 1) 0 0).map fun ends =>
    Line.between source ends.1 ends.2).toArray

/-- Take a number of columns off the front of a line, from a position on.  Behind the
first column that text stands in nothing more is taken, but the marks of a
container that still belong to the line count one column each. -/
def passColumns (source : Source) (line : Line) (stop : Nat) (columns : Int) :
    Nat → Nat → Int → Nat × Int
  | 0, position, taken => (position, taken)
  | most + 1, position, taken =>
    if position < stop && taken < columns then
      if source.has position '\t' then
        passColumns source line stop columns most (position + 1)
          (taken + tabWidth (taken + line.column))
      else if source.has position ' ' || position - line.start < line.shift then
        passColumns source line stop columns most (position + 1) (taken + 1)
      else (position, taken)
    else (position, taken)

/-- The text of a line up to `stop` without its first columns.  What is left of a tab
that reaches beyond them is written as spaces. -/
def Line.content (source : Source) (line : Line) (columns : Int) (stop : Nat) : Text :=
  let (position, taken) :=
    passColumns source line stop columns (stop - line.start) line.start 0
  List.replicate (taken - columns).toNat ' ' ++ source.between position stop

end Markup

end Crosslink

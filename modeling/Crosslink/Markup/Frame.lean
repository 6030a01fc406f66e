import Crosslink.Markup.HtmlBlock
import Crosslink.Markup.Line

namespace Crosslink
namespace Markup

/-!
A frame is a run of lines seen from inside the containers opened so far.  This
module says what a line begins when it is looked at alone: indented code, a fence,
a rule, a heading, a quotation, a list item or raw HTML, and which of these end a
paragraph that is still open.
-/

/-- The lines of a document inside the containers opened so far. -/
structure Frame where
  /-- The document. -/
  source : Source
  /-- Its lines, moved and indented as the containers left them. -/
  lines : Array Line
  /-- The line at which a paragraph must end. -/
  limit : Nat
  /-- The column at which the content of the containers begins. -/
  blockIndent : Int
  /-- The column at which the innermost list began; negative outside of lists. -/
  listIndent : Int

namespace Frame

/-- A line of the frame; behind the last one the empty line at the end of the
document. -/
def line (frame : Frame) (number : Nat) : Line :=
  (frame.lines[number]?).getD
    { start := frame.source.size, stop := frame.source.size, shift := 0, indent := 0, column := 0 }

/-- The character that the text of a line begins with. -/
def first? (frame : Frame) (number : Nat) : Option Char :=
  frame.source[(frame.line number).text]?

def lineText (frame : Frame) (number : Nat) : Text :=
  frame.source.between (frame.line number).text (frame.line number).stop

/-- The line is indented far enough to be code. -/
def isCode (frame : Frame) (number : Nat) : Bool :=
  4 ≤ (frame.line number).indent - frame.blockIndent

/-- The line stands left of the content of the containers. -/
def isOutdented (frame : Frame) (number : Nat) : Bool :=
  (frame.line number).indent < frame.blockIndent

/-- The mark and the length of the fence that a line opens.  The line behind a fence
of backticks holds no backtick. -/
def fence? (frame : Frame) (number : Nat) : Option (Char × Nat) :=
  let line := frame.line number
  match frame.first? number with
  | some mark =>
    if frame.isCode number || line.stop < line.text + 3 then none
    else if mark = '~' || mark = '\x60' then
      let behind := frame.source.pass (· == mark) frame.source.size line.text
      if behind - line.text < 3 then none
      else if mark = '\x60' && (frame.source.between behind line.stop).contains '\x60' then none
      else some (mark, behind - line.text)
    else none
  | none => none

def closesFence (frame : Frame) (mark : Char) (length number : Nat) : Bool :=
  let line := frame.line number
  let behind := frame.source.pass (· == mark) frame.source.size line.text
  !frame.isCode number && line.text + length ≤ behind
    && line.stop ≤ frame.source.pass isSpace frame.source.size behind

/-- The line is a rule: at least three equal marks and nothing else but spaces. -/
def isRule (frame : Frame) (number : Nat) : Bool :=
  match frame.first? number with
  | some mark =>
    let text := frame.lineText number
    !frame.isCode number && (mark = '*' || mark = '-' || mark = '_')
      && text.all (fun c => c == mark || isSpace c) && 3 ≤ text.count mark
  | none => false

/-- The content of the heading that a line is.  Marks at its end are no part of it if
a space stands before them. -/
def heading? (frame : Frame) (number : Nat) : Option Text :=
  let line := frame.line number
  let source := frame.source
  let behind := source.pass (· == '#') line.stop line.text
  let level := behind - line.text
  if frame.isCode number || level = 0 || 6 < level then none
  else if behind < line.stop && !(source[behind]?).any isSpace then none
  else
    let last := source.passBack isSpace behind line.stop
    let marks := source.passBack (· == '#') behind last
    let stop :=
      if behind < marks && (source[marks - 1]?).any isSpace then marks else last
    some (source.between behind stop).trim

/-- The line begins a quotation. -/
def isQuote (frame : Frame) (number : Nat) : Bool :=
  !frame.isCode number && frame.first? number == some '>'

/-- The opening of the block of raw HTML that a line begins. -/
def html? (frame : Frame) (number : Nat) : Option HtmlOpening :=
  if frame.isCode number then none
  else if frame.first? number == some '<' then htmlOpening? (frame.lineText number)
  else none

/-- The mark of a list item. -/
structure Marker where
  /-- The number, on an ordered list. -/
  number? : Option Nat
  /-- The character that ends the mark. -/
  delimiter : Char
  /-- The position behind the mark. -/
  stop : Nat
  deriving Repr, DecidableEq

def endsMarker (frame : Frame) (line : Line) (position : Nat) : Bool :=
  line.stop ≤ position || (frame.source[position]?).any isSpace

/-- The bullet that a line begins with. -/
def bullet? (frame : Frame) (number : Nat) : Option Marker :=
  let line := frame.line number
  match frame.first? number with
  | some c =>
    if (c = '*' || c = '-' || c = '+') && frame.endsMarker line (line.text + 1) then
      some { number? := none, delimiter := c, stop := line.text + 1 }
    else none
  | none => none

/-- The number of one to nine digits, with a full stop or a parenthesis, that a line
begins with. -/
def ordinal? (frame : Frame) (number : Nat) : Option Marker :=
  let line := frame.line number
  let behind := frame.source.pass isAsciiDigit line.stop line.text
  let digits := behind - line.text
  match frame.source[behind]? with
  | some c =>
    if 1 ≤ digits && digits ≤ 9 && behind < line.stop && (c = '.' || c = ')')
        && frame.endsMarker line (behind + 1) then
      let value := (frame.source.between line.text behind).foldl
        (fun value d => value * 10 + (d.toNat - '0'.toNat)) 0
      some { number? := some value, delimiter := c, stop := behind + 1 }
    else none
  | none => none

/-- The mark of the list item that a line begins with. -/
def marker? (frame : Frame) (number : Nat) : Option Marker :=
  match frame.ordinal? number with
  | some marker => some marker
  | none => frame.bullet? number

/-- The mark of the list that a line begins.  Inside a list, a line that is indented
too far for an item of that list and stands left of its content begins none. -/
def list? (frame : Frame) (number : Nat) : Option Marker :=
  let line := frame.line number
  if frame.isCode number then none
  else if 0 ≤ frame.listIndent && 4 ≤ line.indent - frame.listIndent
      && line.indent < frame.blockIndent then none
  else frame.marker? number

/-- The line begins a list that may interrupt a paragraph: the list starts with
number one, and its first item is not empty. -/
def isInterruptingList (frame : Frame) (number : Nat) : Bool :=
  match frame.list? number with
  | some marker =>
    frame.isOutdented number
      || (marker.number?.all (· == 1)
        && frame.source.pass isSpace frame.source.size marker.stop < (frame.line number).stop)
  | none => false

/-- The line begins a block that ends a list item. -/
def endsItem (frame : Frame) (number : Nat) : Bool :=
  (frame.fence? number).isSome || frame.isQuote number || frame.isRule number

/-- The line begins a block, lists apart, that ends what came before. -/
def endsText (frame : Frame) (number : Nat) : Bool :=
  frame.endsItem number || (frame.html? number).any (·.interrupts)
    || (frame.heading? number).isSome

/-- The line begins a block that ends a paragraph. -/
def endsParagraph (frame : Frame) (number : Nat) : Bool :=
  frame.endsText number || frame.isInterruptingList number

/-- The line begins a block that ends a definition or the lines that continue a
quotation without its mark. -/
def endsContinuation (frame : Frame) (number : Nat) : Bool :=
  frame.endsText number || (frame.list? number).isSome

end Frame

end Markup

end Crosslink

import Crosslink.Markup.Destination
import Crosslink.Markup.Frame
import Crosslink.Markup.Label

namespace Crosslink
namespace Markup

/-!
Definitions of reference links.  A definition may run over several lines, and how
many it takes is known only while it is read, so the scan draws further lines as
it reaches the end of the ones it has.
-/

structure Drawn where
  /-- Their text, with line breaks. -/
  text : Source
  /-- The number of the line that comes next. -/
  next : Nat

namespace Drawn

/-- The text of the next line with its line break, if the definition may go on there. -/
def nextLine? (frame : Frame) (number : Nat) : Option Text :=
  let line := frame.line number
  if frame.limit ≤ number || line.isEmpty then none
  else if !frame.isCode number && 0 ≤ line.indent && frame.endsContinuation number then none
  else some (frame.source.between line.text (line.stop + 1))

/-- Draw one more line. -/
def draw? (frame : Frame) (drawn : Drawn) : Option Drawn :=
  (nextLine? frame drawn.next).map fun line =>
    { text := drawn.text ++ line.toArray, next := drawn.next + 1 }

def drawMore (frame : Frame) (drawn : Drawn) : Drawn :=
  (draw? frame drawn).getD drawn

/-- The number of steps that no scan over the frame's lines exceeds. -/
def fuel (frame : Frame) : Nat :=
  2 * frame.source.size + 2

/-- Position of the bracket that closes the label, drawing lines as needed. -/
def labelEnd? (frame : Frame) : Nat → Nat → Drawn → Option (Nat × Drawn)
  | 0, _, _ => none
  | fuel + 1, position, drawn =>
    match drawn.text[position]? with
    | none => none
    | some c =>
      if c = '[' then none
      else if c = ']' then some (position, drawn)
      else if c = '\n' then labelEnd? frame fuel (position + 1) (drawMore frame drawn)
      else if c = '\\' then
        if drawn.text.has (position + 1) '\n' then
          labelEnd? frame fuel (position + 2) (drawMore frame drawn)
        else labelEnd? frame fuel (position + 2) drawn
      else labelEnd? frame fuel (position + 1) drawn

/-- Pass spaces and line breaks, drawing a line at every break. -/
def passSpaces (frame : Frame) : Nat → Nat → Drawn → Nat × Drawn
  | 0, position, drawn => (position, drawn)
  | fuel + 1, position, drawn =>
    match drawn.text[position]? with
    | none => (position, drawn)
    | some c =>
      if c = '\n' then passSpaces frame fuel (position + 1) (drawMore frame drawn)
      else if isSpace c then passSpaces frame fuel (position + 1) drawn
      else (position, drawn)

/-- Finish a title that goes on in further lines. -/
def finishTitle (frame : Frame) : Nat → Title → Drawn → Title × Drawn
  | 0, title, drawn => (title, drawn)
  | fuel + 1, title, drawn =>
    match title with
    | .unfinished closer soFar =>
      match draw? frame drawn with
      | some more =>
        let start := drawn.text.size
        finishTitle frame fuel
          (titleEnd more.text more.text.size closer start soFar (more.text.size - start) start) more
      | none => (title, drawn)
    | _ => (title, drawn)

/-- Nothing but spaces stands between a position and the end of its line. -/
def endsLine (drawn : Drawn) (position : Nat) : Bool :=
  match drawn.text[drawn.text.pass isSpace drawn.text.size position]? with
  | some c => c = '\n'
  | none => true

/-- The line behind a definition whose destination ends at a position: behind the
title if one follows that ends its line, else behind the destination if that ends
its line. -/
def definitionEnd? (frame : Frame) (position : Nat) (drawn : Drawn) : Option Nat :=
  let (titleStart, reached) := passSpaces frame (fuel frame) position drawn
  let (title, final) :=
    finishTitle frame (fuel frame)
      (titleAt reached.text titleStart reached.text.size) reached
  let bare := if endsLine final position then some drawn.next else none
  match title with
  | .closed text behind =>
    -- A title must be set off from the destination unless it runs over the line.
    if titleStart = position && final.next = reached.next then bare
    else if endsLine final behind then some final.next
    else if text.isEmpty then none
    else bare
  | _ => bare

end Drawn

/-- The label that is defined at a line, and the line behind its definition. -/
def Frame.definition? (frame : Frame) (number : Nat) : Option (Text × Nat) := do
  if frame.isCode number || frame.first? number != some '[' then none
  let line := frame.line number
  let opening : Drawn :=
    { text := frame.source.extract line.text (line.stop + 1), next := number + 1 }
  let (closing, labelled) ← Drawn.labelEnd? frame (Drawn.fuel frame) 1 opening
  if !labelled.text.has (closing + 1) ':' then none
  let (start, reached) := Drawn.passSpaces frame (Drawn.fuel frame) (closing + 2) labelled
  let (_, behind) ← destination? reached.text start reached.text.size
  let next ← Drawn.definitionEnd? frame behind reached
  let label := labelForm (labelled.text.between 1 closing)
  if label.isEmpty then none
  return (label, next)

end Markup

end Crosslink

import Crosslink.Markup.Destination
import Crosslink.Markup.Inline.Autolink
import Crosslink.Markup.Label
import Crosslink.Markup.Tag

namespace Crosslink
namespace Markup

/-!
Passing over inline markup.  To find the end of a link's label the scanner passes
over what stands in it, construct by construct, and a construct may itself be a
link with a label.  Two things are remembered from one scan to the next: where
each construct ended, and which runs of backticks were seen.  Labels are looked
into down to a fixed level; below it the rest of the text is passed at once.
-/

structure Scene where
  /-- The whole run of inline text. -/
  source : Source
  /-- Where the part that is being read ends. -/
  stop : Nat
  /-- The comparison forms of the labels that the document defines. -/
  labels : List Text

/-- What is remembered while a run of inline text is read. -/
structure Memory where
  /-- Where the construct that begins at a position ends. -/
  ends : Array (Option Nat)
  /-- The last run of backticks seen of each length. -/
  ticks : List (Nat × Nat)
  /-- Every run of backticks has been seen. -/
  sawAllTicks : Bool

namespace Memory

/-- Nothing is remembered yet about a text of so many characters. -/
def blank (size : Nat) : Memory where
  ends := Array.replicate (size + 1) none
  ticks := []
  sawAllTicks := false

/-- Remember where a construct ends. -/
def remember (memory : Memory) (position stop : Nat) : Memory :=
  { memory with ends := memory.ends.setIfInBounds position (some stop) }

/-- Remember a run of backticks. -/
def rememberTicks (memory : Memory) (length position : Nat) : Memory :=
  { memory with ticks := (length, position) :: memory.ticks }

end Memory

namespace Scene

/-- A character that may begin a construct; text runs up to the next one. -/
def endsPlain (c : Char) : Bool :=
  c = '\n' || ("!#$%&*+-:<=>@[\\]^_\x60\x7b\x7d~" : Text).contains c

/-- Position behind a line break and the indentation of the next line. -/
def behindBreak (scene : Scene) (position : Nat) : Nat :=
  scene.source.pass isSpace scene.stop (position + 1)

/-- A code span, or a run of backticks that begins none. -/
structure Ticks where
  /-- The position behind it. -/
  stop : Nat
  /-- The run is closed by another of the same length. -/
  isSpan : Bool

/-- Look for a run of backticks of a length, remembering the others. -/
def closeTicks (scene : Scene) (length : Nat) : Nat → Nat → Memory → Option Nat × Memory
  | 0, _, memory => (none, memory)
  | fuel + 1, position, memory =>
    match scene.source.find? '\x60' position with
    | none => (none, { memory with sawAllTicks := true })
    | some start =>
      let behind := scene.source.pass (· == '\x60') scene.stop (start + 1)
      if behind - start = length then (some behind, memory)
      else closeTicks scene length fuel behind (memory.rememberTicks (behind - start) start)

/-- The run of backticks that begins at a position. -/
def ticksAt (scene : Scene) (position : Nat) (memory : Memory) : Ticks × Memory :=
  let behind := scene.source.pass (· == '\x60') scene.stop (position + 1)
  let length := behind - position
  if memory.sawAllTicks && (memory.ticks.lookup length).getD 0 ≤ position then
    ({ stop := behind, isSpan := false }, memory)
  else
    match scene.closeTicks length (scene.source.size + 1) behind memory with
    | (some stop, memory) => ({ stop, isSpan := true }, memory)
    | (none, memory) => ({ stop := behind, isSpan := false }, memory)

/-- The escape that begins at a position: the character escaped, or nothing for a line
break, and the position behind. -/
def escape? (scene : Scene) (position : Nat) : Option (Option Char × Nat) :=
  if scene.stop ≤ position + 1 then none
  else
    match scene.source[position + 1]? with
    | none => none
    | some c =>
      if c = '\n' then some (none, scene.behindBreak (position + 1))
      else some (some c, position + 2)

/-- The text that an escaped character stands for; the backslash stays before anything
but punctuation. -/
def escapedText (c : Char) : Text :=
  if isAsciiPunctuation c then [c] else ['\\', c]

/-- The text between angle brackets that begins at a position. -/
def angled? (scene : Scene) (position : Nat) : Option Text :=
  let behind := scene.source.pass (fun c => c != '<' && c != '>') scene.stop (position + 1)
  if behind < scene.stop && scene.source.has behind '>' then
    some (scene.source.between (position + 1) behind)
  else none

structure Autolink where
  /-- Where it leads. -/
  href : Text
  /-- The text between the brackets. -/
  spelled : Text

def autolink? (scene : Scene) (position : Nat) : Option Autolink := do
  let spelled ← scene.angled? position
  if isUri spelled then return { href := spelled, spelled }
  else if isMailAddress spelled then return { href := ("mailto:" : Text) ++ spelled, spelled }
  else none

/-- Position behind the raw HTML that begins at a position. -/
def rawTagEnd? (scene : Scene) (position : Nat) : Option Nat :=
  let source := scene.source
  if scene.stop ≤ position + 2 then none
  else
    match source[position + 1]? with
    | some c =>
      if c = '!' || c = '?' || c = '/' || isAsciiLetter c then
        (rawTag? (source.between position source.size)).map fun rest => source.size - rest.length
      else none
    | none => none

/-- The characters that the reference at a position stands for, and the position behind
it.  A code that no reference may give stands for the replacement character. -/
def entity? (scene : Scene) (position : Nat) : Option (Text × Nat) :=
  let source := scene.source
  if scene.stop ≤ position + 1 then none
  else if source.has (position + 1) '#' then
    (numericCode? 7 6 (source.between (position + 2) (position + 11))).map fun (code, length) =>
      ([if isReferableCode code then Char.ofNat code else replacementChar], position + length)
  else
    (named? (source.between (position + 1) (position + 34))).map fun (value, length) =>
      (value, position + length)

/-- A way of passing over the construct that begins at a position. -/
abbrev Skipper := Nat → Memory → Nat × Memory

/-- Position of the bracket that closes a label.  `opened` counts the brackets that are
open; in a label that may hold no link, a link ends the search. -/
def labelEnd? (scene : Scene) (skip : Skipper) (mayHoldLink : Bool) :
    Nat → Nat → Nat → Memory → Option Nat × Memory
  | 0, _, _, memory => (none, memory)
  | fuel + 1, opened, position, memory =>
    if scene.stop ≤ position then (none, memory)
    else
      let isClosing := scene.source.has position ']'
      if isClosing && opened = 1 then (some position, memory)
      else
        let (next, memory) := skip position memory
        if scene.source.has position '[' then
          if next = position + 1 then
            labelEnd? scene skip mayHoldLink fuel (opened + 1) next memory
          else if mayHoldLink then labelEnd? scene skip mayHoldLink fuel opened next memory
          else (none, memory)
        else
          labelEnd? scene skip mayHoldLink fuel (if isClosing then opened - 1 else opened) next
            memory

/-- The label that begins behind the bracket at a position: where it ends. -/
def label? (scene : Scene) (skip : Skipper) (mayHoldLink : Bool) (position : Nat)
    (memory : Memory) : Option Nat × Memory :=
  scene.labelEnd? skip mayHoldLink (scene.stop - position) 1 (position + 1) memory

/-- Pass spaces and line breaks. -/
def passBlank (scene : Scene) (position : Nat) : Nat :=
  scene.source.pass isSpaceOrBreak scene.stop position

/-- Position behind the title that begins at `position`, which must be set off from what
ends at `behind`, and the spaces after it; else the position itself. -/
def behindTitle (scene : Scene) (behind position : Nat) : Nat :=
  if position = behind then position
  else
    match titleAt scene.source position scene.stop with
    | .closed _ next => scene.passBlank next
    | _ => position

/-- What follows the label of a link. -/
inductive Tail where
  /-- A destination in parentheses, and the position behind them. -/
  | target (href : Text) (stop : Nat)
  /-- Parentheses that hold no destination; a reference is looked for from there. -/
  | broken (position : Nat)
  /-- Nothing that could be a link. -/
  | hopeless

/-- The parenthesis that begins at a position behind a link's label. -/
def linkTail (scene : Scene) (position : Nat) : Tail :=
  let start := scene.passBlank (position + 1)
  if scene.stop ≤ start then .hopeless
  else
    match destination? scene.source start scene.stop with
    | some (href, behind) =>
      let last := scene.behindTitle behind (scene.passBlank behind)
      if last < scene.stop && scene.source.has last ')' then .target href (last + 1)
      else .broken (last + 1)
    | none =>
      if scene.source.has start ')' then .target [] (start + 1) else .broken (start + 1)

/-- Position behind the reference whose first label lies between two positions.  A
second label, if it is not empty, is looked for at `position`. -/
def referenceEnd? (scene : Scene) (skip : Skipper) (start stop position : Nat)
    (memory : Memory) : Option Nat × Memory :=
  let defined (label : Text) (behind : Nat) : Option Nat :=
    if scene.labels.contains (labelForm label) then some behind else none
  let own := scene.source.between start stop
  if scene.labels.isEmpty then (none, memory)
  else if position < scene.stop && scene.source.has position '[' then
    match scene.label? skip true position memory with
    | (some closing, memory) =>
      let label := scene.source.between (position + 1) closing
      (defined (if label.isEmpty then own else label) (closing + 1), memory)
    | (none, memory) => (defined own (stop + 1), memory)
  else (defined own (stop + 1), memory)

structure Link where
  /-- Where the label ends. -/
  labelEnd : Nat
  /-- The position behind the link. -/
  stop : Nat
  /-- Where it leads and where its destination begins, unless it is a reference. -/
  target? : Option (Text × Nat)

/-- Position of a destination in the parentheses that begin at a position. -/
def destinationStart (scene : Scene) (position : Nat) : Nat :=
  let start := scene.passBlank (position + 1)
  if start < scene.stop && scene.source.has start '<' then start + 1 else start

def link? (scene : Scene) (skip : Skipper) (position : Nat) (memory : Memory) :
    Option Link × Memory :=
  match scene.label? skip false position memory with
  | (none, memory) => (none, memory)
  | (some labelEnd, memory) =>
    let reference (next : Nat) : Option Link × Memory :=
      let (stop?, memory) := scene.referenceEnd? skip (position + 1) labelEnd next memory
      (stop?.map fun stop => { labelEnd, stop, target? := none }, memory)
    let behind := labelEnd + 1
    if behind < scene.stop && scene.source.has behind '(' then
      match scene.linkTail behind with
      | .target href stop =>
        (some { labelEnd, stop, target? := some (href, scene.destinationStart behind) }, memory)
      | .broken next => reference next
      | .hopeless => (none, memory)
    else reference behind

/-- Position behind the parentheses that begin at a position behind an image's label. -/
def imageTail? (scene : Scene) (position : Nat) : Option Nat :=
  let start := scene.passBlank (position + 1)
  if scene.stop ≤ start then none
  else
    let behind :=
      match destination? scene.source start scene.stop with
      | some (_, behind) => behind
      | none => start
    let last := scene.behindTitle behind (scene.passBlank behind)
    if last < scene.stop && scene.source.has last ')' then some (last + 1) else none

def imageEnd? (scene : Scene) (skip : Skipper) (position : Nat) (memory : Memory) :
    Option Nat × Memory :=
  if scene.stop ≤ position + 1 || !scene.source.has (position + 1) '[' then (none, memory)
  else
    match scene.label? skip true (position + 1) memory with
    | (none, memory) => (none, memory)
    | (some labelEnd, memory) =>
      let behind := labelEnd + 1
      if behind < scene.stop && scene.source.has behind '(' then (scene.imageTail? behind, memory)
      else scene.referenceEnd? skip (position + 2) labelEnd behind memory

/-- Position behind the construct that begins at a position, if one does, with a way of
passing over what stands in a label. -/
def constructEnd? (scene : Scene) (skip : Skipper) (position : Nat) (memory : Memory) :
    Option Nat × Memory :=
  match scene.source[position]? with
  | none => (none, memory)
  | some c =>
    if c = '\n' then (some (scene.behindBreak position), memory)
    else if c = '\\' then ((scene.escape? position).map (·.2), memory)
    else if c = '\x60' then
      let (ticks, memory) := scene.ticksAt position memory
      (some ticks.stop, memory)
    else if c = '[' then
      let (link?, memory) := scene.link? skip position memory
      (link?.map (·.stop), memory)
    else if c = '!' then scene.imageEnd? skip position memory
    else if c = '<' then
      match scene.autolink? position with
      | some autolink => (some (position + autolink.spelled.length + 2), memory)
      | none => (scene.rawTagEnd? position, memory)
    else if c = '&' then ((scene.entity? position).map (·.2), memory)
    else if endsPlain c then (none, memory)
    else (some (scene.source.pass (!endsPlain ·) scene.stop position), memory)

/-- Pass over the construct or character at a position, looking so many levels deep
into labels. -/
def skip (scene : Scene) : Nat → Skipper
  | 0, position, memory =>
    match memory.ends[position]? with
    | some (some stop) => (stop, memory)
    | _ => (scene.stop + 1, memory.remember position (scene.stop + 1))
  | levels + 1, position, memory =>
    match memory.ends[position]? with
    | some (some stop) => (stop, memory)
    | _ =>
      let (end?, memory) := scene.constructEnd? (skip scene levels) position memory
      let stop := end?.getD (position + 1)
      (stop, memory.remember position stop)

end Scene

end Markup

end Crosslink

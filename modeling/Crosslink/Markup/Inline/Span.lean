import Crosslink.Markup.Inline.Emphasis
import Crosslink.Markup.Inline.Skip
import Crosslink.Url.Display

namespace Crosslink
namespace Markup

/-!
Reading inline text.  The reader goes from construct to construct; plain characters
are gathered until something else is written.  The label of a link is read like the
text around it, one level deeper, and its emphasis marks pair among themselves.
-/

/-- What has been read so far. -/
structure Draft where
  /-- The pieces written, the last one in front. -/
  pieces : List Piece
  /-- The plain characters gathered since, the last one in front. -/
  pending : Text
  /-- What is remembered of the text. -/
  memory : Memory

namespace Draft

/-- Write the plain characters gathered. -/
def flush (draft : Draft) : Draft :=
  if draft.pending.isEmpty then draft
  else
    { draft with
      pieces := .settled [.text draft.pending.reverse] :: draft.pieces
      pending := [] }

def write (draft : Draft) (piece : Piece) : Draft :=
  let draft := draft.flush
  { draft with pieces := piece :: draft.pieces }

def writeEvents (draft : Draft) (events : List Event) : Draft :=
  draft.write (.settled events)

/-- Gather plain characters. -/
def gather (draft : Draft) (text : Text) : Draft :=
  { draft with pending := text.reverse ++ draft.pending }

/-- Write a line break.  Spaces before it are dropped; two of them make it hard. -/
def breakLine (draft : Draft) : Draft :=
  match draft.pending with
  | ' ' :: ' ' :: rest =>
    { draft with pending := rest.dropWhile (· == ' ') }.writeEvents [.object]
  | ' ' :: rest => { draft with pending := rest }.writeEvents [.softBreak]
  | _ => draft.writeEvents [.softBreak]

end Draft

/-- White space in the sense of emphasis. -/
def isWhite (c : Char) : Bool :=
  c = '\t' || c = '\n' || c = '\x0B' || c = '\x0C' || c = '\r' || c = ' ' || c = '\u00A0'
    || c = '\u1680' || ('\u2000' ≤ c && c ≤ '\u200A') || c = '\u202F' || c = '\u205F'
    || c = '\u3000'

namespace Scene

/-- The emphasis marks of the run that begins at a position, by what stands beside the
run; beyond the ends of the text stands white space. -/
def run (scene : Scene) (position : Nat) (c : Char) : Nat × Piece :=
  let source := scene.source
  let behind := source.pass (· == c) scene.stop position
  let before := if position = 0 then ' ' else (source[position - 1]?).getD ' '
  let after := if behind < scene.stop then (source[behind]?).getD ' ' else ' '
  let beforeIsMark := isPunctuation before
  let afterIsMark := isPunctuation after
  let leans := !(isWhite after || (afterIsMark && !(isWhite before || beforeIsMark)))
  let follows := !(isWhite before || (beforeIsMark && !(isWhite after || afterIsMark)))
  let splits := c = '*'
  (behind - position,
    .mark c (behind - position) (leans && (splits || !follows || beforeIsMark))
      (follows && (splits || !leans || afterIsMark)))

def readNext (scene : Scene) (skip : Skipper)
    (inside : Scene → Nat → Memory → List Piece × Memory) (position : Nat) (c : Char)
    (draft : Draft) : Nat × Draft :=
  let plain := (position + 1, draft.gather [c])
  if c = '\n' then (scene.behindBreak position, draft.breakLine)
  else if c = '\\' then
    match scene.escape? position with
    | some (some escaped, next) => (next, draft.writeEvents [.text (escapedText escaped)])
    | some (none, next) => (next, draft.writeEvents [.object])
    | none => plain
  else if c = '\x60' then
    let (ticks, memory) := scene.ticksAt position draft.memory
    let draft := { draft with memory }
    if ticks.isSpan then (ticks.stop, draft.writeEvents [.object])
    else (ticks.stop, draft.gather (List.replicate (ticks.stop - position) '\x60'))
  else if c = '*' || c = '_' then
    let (length, mark) := scene.run position c
    (position + length, (List.replicate length mark).foldl Draft.write draft)
  else if c = '[' then
    let (link?, memory) := scene.link? skip position draft.memory
    match link? with
    | none => (position + 1, { draft.gather [c] with memory })
    | some link =>
      let (pieces, memory) := inside { scene with stop := link.labelEnd } (position + 1) memory
      let anchor : Anchor :=
        { target? := link.target?.map (·.1), position,
          destination := (link.target?.map (·.2)).getD 0 }
      (link.stop,
        { draft with memory }.writeEvents
          (Event.linkOpen anchor :: settle pieces ++ [Event.linkClose]))
  else if c = '!' then
    let (stop?, memory) := scene.imageEnd? skip position draft.memory
    match stop? with
    | none => (position + 1, { draft.gather [c] with memory })
    | some stop => (stop, { draft with memory }.writeEvents [.object])
  else if c = '<' then
    match scene.autolink? position with
    | some autolink =>
      let anchor : Anchor :=
        { target? := some autolink.href, position, destination := position + 1 }
      (position + autolink.spelled.length + 2,
        draft.writeEvents
          [.linkOpen anchor, .text (Url.displayed autolink.spelled), .linkClose])
    | none =>
      match scene.rawTagEnd? position with
      | some stop => (stop, draft.writeEvents [.object])
      | none => plain
  else if c = '&' then
    match scene.entity? position with
    | some (value, next) => (next, draft.writeEvents [.text value])
    | none => plain
  else if endsPlain c then plain
  else
    let stop := scene.source.pass (!endsPlain ·) scene.stop position
    (stop, draft.gather (scene.source.between position stop))

def readFrom (scene : Scene) (skip : Skipper)
    (inside : Scene → Nat → Memory → List Piece × Memory) : Nat → Nat → Draft → Draft
  | 0, _, draft => draft
  | fuel + 1, position, draft =>
    if scene.stop ≤ position then draft
    else
      match scene.source[position]? with
      | none => draft
      | some c =>
        let (next, draft) := scene.readNext skip inside position c draft
        readFrom scene skip inside fuel next draft

/-- The pieces of a scene from a position on, looking so many levels deep into labels.
At the deepest level everything is plain. -/
def pieces : Nat → Scene → Nat → Memory → List Piece × Memory
  | 0, scene, position, memory =>
    ([.settled [.text (scene.source.between position scene.stop)]], memory)
  | levels + 1, scene, position, memory =>
    let draft := scene.readFrom (skip scene (levels + 1)) (pieces levels)
      (scene.stop - position) position { pieces := [], pending := [], memory }
    (draft.flush.pieces.reverse, draft.memory)

end Scene

/-- The deepest level of links that is read. -/
def deepestLabel : Nat := 20

/-- The tokens of a run of inline text in a document that defines the given labels. -/
def inlineTokens (labels : List Text) (content : Text) : List Token :=
  let scene : Scene := { source := content.toArray, stop := content.length, labels }
  leveled 0 (settle (scene.pieces deepestLabel 0 (Memory.blank content.length)).1)

end Markup

end Crosslink

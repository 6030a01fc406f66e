import Crosslink.Markup.Definition

namespace Crosslink
namespace Markup

/-!
The block structure of a document.  Quotations and list items are containers whose
lines are read again inside them; every other block is a leaf.  What is kept of a
document is what inline markup needs: the texts of its paragraphs and headings,
each with the line it begins on, and the labels that it defines.
-/

/-- A run of inline text. -/
structure Leaf where
  /-- The text without the marks of its containers, trimmed. -/
  content : Text
  /-- The number of the line it begins on, counted from zero. -/
  line : Nat
  deriving Repr, DecidableEq

structure Document where
  /-- The runs of inline text in order. -/
  leaves : List Leaf
  /-- The comparison forms of the defined labels. -/
  labels : List Text
  deriving Repr, DecidableEq

/-- The deepest level of containers that is looked into.  A quotation takes one
level, a list two. -/
def deepestLevel : Nat := 20

namespace Document

def addLeaf (document : Document) (content : Text) (line : Nat) : Document :=
  { document with leaves := { content, line } :: document.leaves }

def addLabel (document : Document) (label : Text) : Document :=
  { document with labels := label :: document.labels }

end Document

namespace Frame

/-- The first line, from a given one on, that is not empty; at most `limit`. -/
def passEmpty (frame : Frame) : Nat → Nat → Nat
  | 0, number => number
  | most + 1, number =>
    if number < frame.limit && (frame.line number).isEmpty then passEmpty frame most (number + 1)
    else number

/-- The line behind indented code whose last line so far is the one before `last`. -/
def codeEnd (frame : Frame) (stop : Nat) : Nat → Nat → Nat → Nat
  | 0, _, last => last
  | most + 1, number, last =>
    if stop ≤ number then last
    else if (frame.line number).isEmpty then codeEnd frame stop most (number + 1) last
    else if frame.isCode number then codeEnd frame stop most (number + 1) (number + 1)
    else last

/-- The line behind fenced code; the line that closes the fence belongs to it. -/
def fenceEnd (frame : Frame) (mark : Char) (length stop : Nat) : Nat → Nat → Nat
  | 0, number => number
  | most + 1, number =>
    let line := frame.line number
    if stop ≤ number then number
    else if !line.isEmpty && frame.isOutdented number then number
    else if (frame.first? number).isNone then number
    else if frame.closesFence mark length number then number + 1
    else fenceEnd frame mark length stop most (number + 1)

/-- The line behind a block of raw HTML. -/
def htmlEnd (frame : Frame) (opening : HtmlOpening) (stop : Nat) : Nat → Nat → Nat
  | 0, number => number
  | most + 1, number =>
    if stop ≤ number || frame.isOutdented number then number
    else
      let text := frame.lineText number
      if opening.endsAt text then (if text.isEmpty then number else number + 1)
      else htmlEnd frame opening stop most (number + 1)

/-- The line goes on with the paragraph before it, whatever it looks like: it is
indented far, or it was taken into its container without the container's mark. -/
def isForced (frame : Frame) (number : Nat) : Bool :=
  frame.isCode number || (frame.line number).indent < 0

def paragraphEnd (frame : Frame) : Nat → Nat → Nat
  | 0, number => number
  | most + 1, number =>
    if frame.limit ≤ number || (frame.line number).isEmpty then number
    else if !frame.isForced number && frame.endsParagraph number then number
    else paragraphEnd frame most (number + 1)

/-- The line underlines the text before it, which makes that text a heading. -/
def isUnderline (frame : Frame) (number : Nat) : Bool :=
  let line := frame.line number
  match frame.first? number with
  | some mark =>
    !frame.isOutdented number && !line.isEmpty && (mark = '-' || mark = '=')
      && line.stop ≤ frame.source.pass isSpace frame.source.size
        (frame.source.pass (· == mark) frame.source.size line.text)
  | none => false

def underline? (frame : Frame) (stop : Nat) : Nat → Nat → Option Nat
  | 0, _ => none
  | most + 1, number =>
    if stop ≤ number || (frame.line number).isEmpty then none
    else if frame.isCode number then underline? frame stop most (number + 1)
    else if frame.isUnderline number then some number
    else if !frame.isForced number && frame.endsParagraph number then none
    else underline? frame stop most (number + 1)

/-- The text of several lines without the columns of their containers, trimmed. -/
def content (frame : Frame) (start stop : Nat) : Text :=
  let texts := (List.range' start (stop - start)).map fun number =>
    let line := frame.line number
    line.content frame.source frame.blockIndent
      (if number + 1 < stop then line.stop + 1 else line.stop)
  Text.trim texts.flatten

/-- A line of a quotation without its mark; the mark begins the text of the line. -/
def unquoted (frame : Frame) (number : Nat) : Line :=
  let line := frame.line number
  let source := frame.source
  let behind := line.text + 1
  let offset := line.indent + 1
  let spaced := (source[behind]?).any isSpace
  -- A tab that reaches beyond the space behind the mark stays, and counts from there.
  let tabStays := source.has behind '\t' && (line.column + offset) % 4 != 3
  let taken := if spaced && !tabStays then 1 else 0
  let start := behind + taken
  let initial := offset + (taken : Nat)
  let (text, reached) :=
    passIndent source (line.column + if tabStays then 1 else 0) (line.stop - start) start initial
  { start, stop := line.stop, shift := text - start, indent := reached - initial,
    column := line.indent + 1 + if spaced then 1 else 0 }

def setLine (frame : Frame) (number : Nat) (line : Line) : Frame :=
  { frame with lines := frame.lines.setIfInBounds number line }

/-- The lines of a quotation, read from inside, and the line behind it.  Lines without
the mark may follow if they go on with a paragraph. -/
def quotation (frame : Frame) (stop : Nat) : Nat → Nat → Bool → Frame → Frame × Nat
  | 0, number, _, inner => (inner, number)
  | most + 1, number, lastEmpty, inner =>
    let line := frame.line number
    if stop ≤ number || line.isEmpty then (inner, number)
    else if frame.first? number == some '>' && !frame.isOutdented number then
      let quoted := frame.unquoted number
      quotation frame stop most (number + 1) quoted.isEmpty (inner.setLine number quoted)
    else if lastEmpty then (inner, number)
    else if frame.endsContinuation number then
      let limited := { inner with limit := number }
      if frame.blockIndent = 0 then (limited, number)
      else
        (limited.setLine number { line with indent := line.indent - frame.blockIndent }, number)
    else
      quotation frame stop most (number + 1) lastEmpty
        (inner.setLine number { line with indent := -1 })

/-- The frame inside a list item whose mark stands on a line, and whether the item
begins with nothing. -/
def insideItem (frame : Frame) (number : Nat) (marker : Marker) : Frame × Bool :=
  let line := frame.line number
  let initial := line.indent + ((marker.stop - line.text : Nat) : Int)
  let (text, offset) :=
    passIndent frame.source line.column (line.stop - marker.stop) marker.stop initial
  let isBare : Bool := line.stop ≤ text
  let width := if isBare then 1 else offset - initial
  let indent := initial + if 4 < width then 1 else width
  ({ frame.setLine number { line with shift := text - line.start, indent := offset } with
      listIndent := frame.blockIndent, blockIndent := indent }, isBare)

/-- The mark of the next item of a list, if the list goes on at a line. -/
def nextMarker? (frame : Frame) (marker : Marker) (number : Nat) : Option Marker :=
  if frame.isOutdented number || frame.isCode number || frame.endsItem number then none
  else
    let next? := if marker.number?.isSome then frame.ordinal? number else frame.bullet? number
    next?.filter (·.delimiter == marker.delimiter)

/-- A reader of the blocks between two lines, which hands back the line it came to. -/
abbrev Reader := Frame → Nat → Nat → Document → Nat × Document

def items (inside : Reader) (frame : Frame) (stop : Nat) :
    Nat → Nat → Marker → Document → Nat × Document
  | 0, number, _, document => (number, document)
  | most + 1, number, marker, document =>
    let (inner, isBare) := frame.insideItem number marker
    let (next, read) :=
      if isBare && (inner.line (number + 1)).isEmpty then (min (number + 2) stop, document)
      else inside inner number stop document
    if stop ≤ next then (next, read)
    else
      match frame.nextMarker? marker next with
      | some following => items inside frame stop most next following read
      | none => (next, read)

/-- Read the block that begins at a line, with readers for the content of a quotation
and of a list item. -/
def readBlock (insideQuote insideItem : Reader) (frame : Frame) (number stop : Nat)
    (document : Document) : Nat × Document :=
  let rest := stop - number
  if frame.isCode number then (frame.codeEnd stop rest (number + 1) (number + 1), document)
  else
    match frame.fence? number with
    | some (mark, length) => (frame.fenceEnd mark length stop rest (number + 1), document)
    | none =>
    if frame.isQuote number then
      let quoted := frame.unquoted number
      let (inner, behind) :=
        frame.quotation stop rest (number + 1) quoted.isEmpty (frame.setLine number quoted)
      insideQuote { inner with blockIndent := 0 } number behind document
    else if frame.isRule number then (number + 1, document)
    else
    match frame.list? number with
    | some marker => items insideItem frame stop (rest + 1) number marker document
    | none =>
    match frame.definition? number with
    | some (label, next) => (next, document.addLabel label)
    | none =>
    match frame.html? number with
    | some opening =>
      if opening.endsAt (frame.lineText number) then (number + 1, document)
      else (frame.htmlEnd opening stop rest (number + 1), document)
    | none =>
    match frame.heading? number with
    | some content => (number + 1, document.addLeaf content number)
    | none =>
    match frame.underline? stop rest (number + 1) with
    | some underline =>
      (underline + 1, document.addLeaf (frame.content number underline) number)
    | none =>
      let next := frame.paragraphEnd (frame.limit - number) (number + 1)
      (next, document.addLeaf (frame.content number next) number)

/-- Read blocks one after the other up to a line, or up to text that stands left of the
frame's content. -/
def readBlocks (block : Reader) (frame : Frame) (stop : Nat) :
    Nat → Nat → Document → Nat × Document
  | 0, number, document => (number, document)
  | most + 1, number, document =>
    if stop ≤ number then (number, document)
    else
      let start := frame.passEmpty (frame.limit - number) number
      if stop ≤ start || frame.isOutdented start then (start, document)
      else
        let (next, read) := block frame start stop document
        readBlocks block frame stop most
          (if next < stop && (frame.line next).isEmpty then next + 1 else next) read

/-- Read the blocks between two lines, looking into so many levels of containers.  What
lies deeper is dropped. -/
def read : Nat → Reader
  | 0, frame, number, stop, document =>
    readBlocks (fun _ _ stop document => (stop, document)) frame stop (stop - number + 1)
      number document
  | 1, frame, number, stop, document =>
    readBlocks (readBlock (read 0) (read 0)) frame stop (stop - number + 1) number document
  | levels + 2, frame, number, stop, document =>
    readBlocks (readBlock (read (levels + 1)) (read levels)) frame stop
      (stop - number + 1) number document

end Frame

/-- The text with its line breaks written as line feeds and without null characters. -/
def plainBreaks : Text → Text
  | [] => []
  | '\r' :: rest =>
    match rest with
    | '\n' :: _ => plainBreaks rest
    | _ => '\n' :: plainBreaks rest
  | c :: rest => (if c = '\x00' then '\uFFFD' else c) :: plainBreaks rest

def Document.ofText (text : Text) : Document :=
  let source : Source := (plainBreaks text).toArray
  let lines := linesOf source
  let frame : Frame :=
    { source, lines, limit := lines.size, blockIndent := 0, listIndent := -1 }
  let (_, document) := Frame.read deepestLevel frame 0 lines.size { leaves := [], labels := [] }
  { document with leaves := document.leaves.reverse }

end Markup

end Crosslink

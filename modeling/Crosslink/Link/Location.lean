import Crosslink.Markup.Document
import Crosslink.Text.Blank

namespace Crosslink

/-!
From a position in a run of inline text back to the document.  A run of inline text
lacks the marks of its containers, so only the number of the line is certain; the
column is found by looking for the text of the inline line in the line of the
document.  Where that text is not found the position stays unknown.
-/

/-- Where a position of a run of inline text lies in the document. -/
structure Location where
  /-- The number of the line, counted from zero. -/
  line : Nat
  /-- The position in the document, if it was found. -/
  position? : Option Nat
  deriving Repr, DecidableEq

namespace Location

/-- Position of the beginning of a line. -/
def lineStart (lines : List Text) (number : Nat) : Nat :=
  ((lines.take number).map fun line => line.length + 1).foldl (· + ·) 0

/-- The column at which a piece stands in a line: at the end if it stands there, else
where it occurs first. -/
def column? (piece line : Text) : Option Nat :=
  if line.endsWith piece then some (line.length - piece.length) else Text.find? piece line

/-- Where a position of a run of inline text lies among the lines of the document. -/
def of (lines : List Text) (leaf : Markup.Leaf) (position : Nat) : Location :=
  let inlineLines := leaf.content.splitOn '\n'
  let number := (leaf.content.take position).count '\n'
  let piece := Text.trimEnd ((inlineLines[number]?).getD [])
  let inset := position - lineStart inlineLines number
  let line := leaf.line + number
  { line
    position? := do
      let column ← column? piece (Text.trimEnd (← lines[line]?))
      return lineStart lines line + column + inset }

/-- A character that may stand behind a destination: a space, a line break, or the mark
that closes the destination or the link. -/
def endsDestination (c : Char) : Bool :=
  c = ' ' || c = '\t' || c = '\r' || c = '\n' || c = ')' || c = '>'

/-- The range of an href in a text, if the text spells the whole destination that begins
at the position exactly as the href reads. -/
def hrefRange? (text href : Text) (position : Nat) : Option (Nat × Nat) :=
  let behind := text.drop position
  if href.isEmpty || !Text.startsWith behind href then none
  else
    match behind.drop href.length with
    | c :: _ =>
      if endsDestination c then some (position, position + href.length) else none
    | [] => some (position, position + href.length)

end Location

end Crosslink

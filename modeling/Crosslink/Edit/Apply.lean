import Crosslink.Edit.Replacement
import Crosslink.Edit.Tally
import Crosslink.Text.Lines

namespace Crosslink

/-!
Making edits in a text.  The edits that know their position come first, the last
position first, so that the positions before it stay right.  Where the text no longer
holds the old href at its position, the href is looked for within a window around it.
The edits by line follow.  An edit whose href is not found is left out.
-/

namespace Edit

/-- The text with another text in place of a range. -/
def splice (text : Text) (start length : Nat) (new : Text) : Text :=
  text.take start ++ new ++ text.drop (start + length)

/-- How far around its position an href is looked for. -/
def defaultWindow : Int := 64

/-- Make an edit at a position; nothing if the range is no range of the text or the old
href is neither there nor within the window. -/
def applyAt? (window : Int) (text : Text) (old new : Text) (start stop : Int) : Option Text :=
  if start < 0 || text.length < stop || stop ≤ start then none
  else if text.slice start.toNat stop.toNat = old then
    some (splice text start.toNat (stop - start).toNat new)
  else
    match Text.findFrom? old text (max 0 (start - window)).toNat with
    | none => none
    | some found =>
      if found < start || found ≤ stop + window then some (splice text found old.length new)
      else none

def replaceFirst (old new line : Text) : Text :=
  match Text.find? old line with
  | some position => splice line position old.length new
  | none => line

/-- Make an edit at the first occurrence of the old href on a line.  The lines are joined
with one kind of line break, the wide one if the text has any; a text without the line,
or whose line lacks the href, stays as it is. -/
def applyOnLine (text : Text) (line : Int) (old new : Text) : Text :=
  let lines := text.splitLines
  if line < 1 then text
  else
    match lines[(line - 1).toNat]? with
    | none => text
    | some content =>
      if (Text.find? old content).isSome then
        Text.join text.lineBreak (lines.set (line - 1).toNat (replaceFirst old new content))
      else text

/-- What came of a list of edits. -/
structure Outcome where
  /-- The text with the edits made. -/
  content : Text
  /-- The number of edits made. -/
  applied : Nat
  /-- The edits made, by kind. -/
  tally : Tally
  /-- The edits left out, in the order in which they were tried. -/
  missed : List Replacement
  deriving Repr, DecidableEq

namespace Outcome

/-- No edit made yet. -/
def start (content : Text) : Outcome where
  content
  applied := 0
  tally := []
  missed := []

/-- An edit has been made. -/
def count (outcome : Outcome) (content kind : Text) : Outcome :=
  { outcome with content, applied := outcome.applied + 1, tally := outcome.tally.add kind 1 }

/-- An edit has been left out. -/
def miss (outcome : Outcome) (replacement : Replacement) : Outcome :=
  { outcome with missed := outcome.missed ++ [replacement] }

/-- An edit has been made for whose sake the file is written back. -/
def triggersWrite (outcome : Outcome) : Bool :=
  0 < (Replacement.writingKinds.map outcome.tally.count).foldl (· + ·) 0

end Outcome

/-- A replacement with the range it is made in. -/
structure Placed where
  replacement : Replacement
  /-- Position of the first character of the old href. -/
  start : Int
  /-- Position behind the last character of the old href. -/
  stop : Int
  deriving Repr, DecidableEq

/-- The replacement with its range, if it knows one. -/
def Placed.of? (replacement : Replacement) : Option Placed :=
  replacement.range?.map fun range => { replacement, start := range.1, stop := range.2 }

/-- Insert into a list that descends by start, before those that start earlier and
behind those that start at the same position. -/
def insertDescending (placed : Placed) : List Placed → List Placed
  | [] => [placed]
  | first :: rest =>
    if first.start < placed.start then placed :: first :: rest
    else first :: insertDescending placed rest

/-- Sort by start, the greatest first; equal starts keep their order. -/
def descending (placed : List Placed) : List Placed :=
  placed.foldl (fun sorted next => insertDescending next sorted) []

/-- Make one edit by position. -/
def stepAt (window : Int) (outcome : Outcome) (placed : Placed) : Outcome :=
  let replacement := placed.replacement
  match applyAt? window outcome.content replacement.oldHref replacement.newHref placed.start
      placed.stop with
  | some content => outcome.count content replacement.kind
  | none => outcome.miss replacement

def stepOnLine (outcome : Outcome) (replacement : Replacement) : Outcome :=
  let content := applyOnLine outcome.content replacement.line replacement.oldHref
    replacement.newHref
  if content = outcome.content then outcome.miss replacement
  else outcome.count content replacement.kind

def apply (window : Int) (content : Text) (replacements : List Replacement) : Outcome :=
  let placed := descending (replacements.filterMap Placed.of?)
  let unplaced := replacements.filter fun replacement => replacement.range?.isNone
  unplaced.foldl stepOnLine (placed.foldl (stepAt window) (Outcome.start content))

end Edit

end Crosslink

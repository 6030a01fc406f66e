import Crosslink.Text.Basic

namespace Crosslink

/-!
Edits of hrefs.  A replacement that knows where its href begins and ends is made
there; any other is made at the first occurrence on its line.
-/

structure Replacement where
  /-- The number of the line, counted from one. -/
  line : Int
  /-- The href as it stands. -/
  oldHref : Text
  /-- The href to write instead. -/
  newHref : Text
  /-- Position of the first character of the href. -/
  start? : Option Int
  /-- Position behind the last character of the href. -/
  stop? : Option Int
  /-- What the edit is for. -/
  kind? : Option Text
  deriving Repr, DecidableEq

namespace Replacement

/-- The kind of edits that make a link relative. -/
def normalizedRel : Text := "normalizedRel"

/-- The kind of edits that make a link rooted. -/
def normalizedFull : Text := "normalizedFull"

/-- The kind of edits that exchange the beginning of a link. -/
def pathSubstitution : Text := "pathSubstitution"

/-- The kind of edits that repair a broken link. -/
def patched : Text := "patched"

/-- The kind of edits that name none. -/
def updated : Text := "updated"

/-- The kinds of edits for whose sake a file is written back. -/
def writingKinds : List Text :=
  [normalizedFull, patched, pathSubstitution, normalizedRel]

def kind (replacement : Replacement) : Text :=
  match replacement.kind? with
  | some (c :: name) => c :: name
  | _ => updated

/-- The positions of the edit, if it knows both. -/
def range? (replacement : Replacement) : Option (Int × Int) :=
  match replacement.start?, replacement.stop? with
  | some start, some stop => some (start, stop)
  | _, _ => none

end Replacement

end Crosslink

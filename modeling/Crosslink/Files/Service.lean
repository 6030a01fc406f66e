import Crosslink.Files.Failure
import Crosslink.Path

namespace Crosslink

/-!
What link processing asks of a collection of files.  The same work runs on a map
in memory and on a tree of directories, so it is written against this interface
alone.  A state is passed in and, where it may change, handed back; a failed
write hands one back too, because it may have changed something before it failed.

A walk goes as deep as the directories do.  It is bounded by the depth of the collection
only, and not by a limit on nested calls: there is none here, whatever the depth.
-/

/-- A child of a directory. -/
structure Entry where
  /-- The child's name, without a slash. -/
  name : Text
  /-- The child is a directory. -/
  isDirectory : Bool
  deriving Repr, DecidableEq

/-- A collection of text files. -/
class Files (σ : Type) where
  /-- The text of a file. -/
  read : σ → Text → Except Failure Text
  /-- Store a text under a path. -/
  write : σ → Text → Text → Except Failure Unit × σ
  /-- A file or directory of that path is there. -/
  present : σ → Text → Except Failure Bool
  /-- The absolute, normalised form of a path. -/
  resolve : σ → Text → Text
  /-- The children of a directory, sorted by name. -/
  list : σ → Text → Except Failure (List Entry)
  /-- A number of levels that no path in the collection exceeds. -/
  depth : σ → Nat

namespace Files

variable {σ : Type} [Files σ]

def markdownSuffix : Text := ".md"

/-- Collect what a walk finds in the children of a directory: the files below each
subdirectory, as the given function finds them, and the markdown files. -/
def gather (below : Text → Except Failure (List Text)) (directory : Text) :
    List Entry → Except Failure (List Text)
  | [] => .ok []
  | entry :: rest => do
    let path := Path.under directory entry.name
    let found ←
      if entry.isDirectory then below path
      else if entry.name.endsWith markdownSuffix then .ok [path] else .ok []
    let more ← gather below directory rest
    return found ++ more

/-- Every markdown file at most so many levels below a directory, depth first in
the order of names. -/
def walkWithin (files : σ) : Nat → Text → Except Failure (List Text)
  | 0, _ => .error .tooDeep
  | levels + 1, directory => do
    let entries ← list files directory
    gather (walkWithin files levels) directory entries

/-- Every markdown file below a directory, depth first in the order of names. -/
def walk (files : σ) (directory : Text) : Except Failure (List Text) :=
  walkWithin files (depth files + 1) directory

/-- The markdown files that a path names: those below it if it is a directory, else
the path itself if it is an existing markdown file. -/
def collect (files : σ) (path : Text) : Except Failure (List Text) :=
  match walk files path with
  | .error failure =>
    if failure.isAbsence && path.endsWith markdownSuffix then
      match present files path with
      | .ok true => .ok [path]
      | .ok false => .error failure
      | .error other => .error other
    else .error failure
  | found => found

end Files

end Crosslink

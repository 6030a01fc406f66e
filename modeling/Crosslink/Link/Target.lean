import Crosslink.Config.Rules
import Crosslink.Files.Service
import Crosslink.Href.Parts

namespace Crosslink

/-!
What a link points at.  A link that begins with the name of a docs folder is read
in the root; any other is read in the directory of the file it stands in, the one
with several segments by way of the root.  Where no root is known it is looked for
above the file.
-/

namespace Target

/-- The path that a link stands for, as written inside a file.  The anchor plays no
part, and a query is taken as part of the path. -/
def path (cwd : Text) (folders : List Text) (root file href : Text) : Text :=
  let written := Href.withoutAnchor href
  if folders.contains (written.before '/') then Path.concat [root, written]
  else if written.startsWith ['.', '/'] || written.startsWith ['.', '.', '/']
      || !written.contains '/' then
    Path.concat [Path.hostDir file, written]
  else Path.concat [root, Path.relative cwd root (Path.hostDir file), written]

/-- The path that a link stands for; there is none for an empty link. -/
def path? (cwd : Text) (folders : List Text) (root file href : Text) : Except Failure Text :=
  if href.isEmpty then .error .emptyLinkPath else .ok (path cwd folders root file href)

/-- Names that mark the root of a tree of documents. -/
def rootMarkers : List Text :=
  [".git", "pyproject.toml", "package.json", ".mdlinks"]

/-- A directory and those above it, at most so many steps up. -/
def upward : Nat → Text → List Text
  | 0, directory => [directory]
  | steps + 1, directory =>
    let above := Path.parent directory
    if above.isEmpty || above = directory then [directory]
    else directory :: upward steps above

/-- A directory and all those above it, the nearest first. -/
def ancestors (directory : Text) : List Text :=
  upward directory.length directory

def isMarked (present : Text → Except Failure Bool) (directory : Text) : Except Failure Bool :=
  rootMarkers.anyM fun marker => present (Path.under directory marker)

/-- How many directories are searched for a root marker. -/
def searchDepth : Int := 10

/-- The nearest of so many directories, going up from a start, that holds a root
marker. -/
def detectRoot (present : Text → Except Failure Bool) (start : Text) (depth : Int) :
    Except Failure (Option Text) :=
  ((ancestors start).take depth.toNat).findM? (isMarked present)

/-- The root to read links in: the one that is given, else the one found above the file,
else the file's own directory. -/
def rootFor (present : Text → Except Failure Bool) (given? : Option Text) (file : Text) :
    Except Failure Text :=
  match given? with
  | some (c :: root) => .ok (c :: root)
  | _ => do
    let start := Path.hostDir file
    let found ← detectRoot present start searchDepth
    match found with
    | some (c :: root) => return c :: root
    | _ => return start

/-- The absolute path that a link stands for, with a root that may have to be found. -/
def locate {σ : Type} [Files σ] (files : σ) (cwd : Text) (folders : List Text)
    (given? : Option Text) (file href : Text) : Except Failure Text := do
  let root ← rootFor (Files.present files) given? file
  let found ← path? cwd folders root file href
  return Files.resolve files found

end Target

end Crosslink

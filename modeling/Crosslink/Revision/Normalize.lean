import Crosslink.Link.Target
import Crosslink.Href.Kind
import Crosslink.Revision.Generation

namespace Crosslink

/-!
Writing links in their canonical relative form.  A link whose target exists is written
as the shortest path from its own directory if that path does not climb; else, if the
target lies directly in the root, as its bare name.  Everything else is left alone, and
nothing is replaced by itself.
-/

namespace Normalize

/-- How a canonical form was found. -/
inductive Strategy where
  /-- The target lies in or below the directory of the file. -/
  | relative
  /-- The target lies directly in the root. -/
  | singleFile
  deriving Repr, DecidableEq

def Strategy.name : Strategy → Text
  | relative => "relative"
  | singleFile => "singleFile"

def climbs (path : Text) : Bool :=
  path.startsWith ['.', '.']

/-- The path from the directory of a file down to a target; none if it climbs.  A `./`
in front is kept only for a link that was written with one. -/
def fromHost? (cwd file href target : Text) : Option Text :=
  let path := Path.relativeHref cwd (Path.hostDir file) target
  if climbs path then none
  else if path.startsWith ['.', '/'] && !href.startsWith ['.', '/'] then some (path.drop 2)
  else some path

/-- The name of a target that lies directly in the root. -/
def fromRoot? (cwd root target : Text) : Option Text :=
  let path := Path.relativeHref cwd root target
  if climbs path || path.contains '/' then none else some path

/-- A name that is never written without its directory. -/
def indexName : Text := "index.md"

def revise (file : Text) (link : Link) (parts : Href.Parts) (strategy : Strategy) (path : Text) :
    Treatment :=
  let href := path ++ parts.query ++ parts.anchor
  if href = link.href then Treatment.none
  else
    { replacement? := some
        { line := link.line, oldHref := link.href, newHref := href, start? := link.start?,
          stop? := link.stop?, kind? := some Replacement.normalizedRel }
      broken? := none
      notes := [.revised file link.href href strategy.name] }

/-- The canonical form of a link to a target that lies directly in the root. -/
def treatAtRoot (present : Text → Except Failure Bool) (cwd : Text) (rules : Rules) (file : Text)
    (link : Link) (parts : Href.Parts) (target : Text) : Except Failure Treatment :=
  match fromRoot? cwd rules.root target with
  | none => .ok Treatment.none
  | some name =>
    if name = indexName then .ok Treatment.none
    else
      match present target with
      | .ok true => .ok (revise file link parts .singleFile name)
      | .ok false => .ok Treatment.none
      | .error failure => .error failure

def treatTarget (present : Text → Except Failure Bool) (cwd : Text) (rules : Rules) (file : Text)
    (link : Link) (parts : Href.Parts) (target : Text) : Except Failure Treatment :=
  match fromHost? cwd file link.href target with
  | none => treatAtRoot present cwd rules file link parts target
  | some path =>
    match present target with
    | .ok true => .ok (revise file link parts .relative path)
    | .ok false => treatAtRoot present cwd rules file link parts target
    | .error failure => .error failure

/-- Write one link in its canonical form. -/
def treat (present : Text → Except Failure Bool) (cwd : Text) (rules : Rules) (file : Text)
    (link : Link) : Except Failure Treatment :=
  if Href.isSkipped rules.exclusions link.href then .ok Treatment.none
  else
    let parts := Href.split link.href
    match Target.path? cwd rules.folders rules.root file parts.path with
    | .error failure => .error failure
    | .ok target => treatTarget present cwd rules file link parts target

/-- Write the links of a file in their canonical form. -/
def generate (present : Text → Except Failure Bool) (cwd : Text) (rules : Rules) (file : Text)
    (links : List Link) : Generation :=
  Generation.ofLinks (treat present cwd rules file) links

end Normalize

end Crosslink

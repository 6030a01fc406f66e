import Crosslink.Href.Kind
import Crosslink.Link.Variant
import Crosslink.Revision.Generation

namespace Crosslink

/-!
Looking for links whose target is missing.  A link that climbs too far is repaired with
its first variant that leads somewhere; any other broken link is reported with the line
it stands on.
-/

namespace Check

/-- The line of a file that a link stands on; empty if there is no such line. -/
def lineOf (lines : List Text) (line : Int) : Text :=
  if line < 1 then [] else (lines[(line - 1).toNat]?).getD []

def keepDot (href path : Text) : Text :=
  if href.startsWith ['.'] && !path.startsWith ['.'] then '.' :: '/' :: path else path

/-- Repair a link with a variant that leads somewhere. -/
def patch (cwd : Text) (rules : Rules) (file : Text) (link : Link) (candidate : Text) :
    Except Failure Treatment :=
  let parts := Href.split candidate
  match Target.path? cwd rules.folders rules.root file parts.path with
  | .error failure => .error failure
  | .ok target =>
    let path := keepDot link.href (Path.relativeHref cwd (Path.hostDir file) target)
    .ok
      { replacement? := some
          { line := link.line, oldHref := link.href
            newHref := path ++ parts.query ++ parts.anchor, start? := link.start?
            stop? := link.stop?, kind? := some Replacement.patched }
        broken? := none
        notes := [.variant candidate link.href
          (Target.path cwd rules.folders rules.root file candidate)] }

def report (file : Text) (lines : List Text) (link : Link) : Treatment where
  replacement? := none
  broken? := some { file, lineNumber := link.line, line := lineOf lines link.line }
  notes := [.missing file link.line link.href]

/-- Repair or report a link whose target is missing. -/
def treatMissing (present : Text → Except Failure Bool) (cwd : Text) (rules : Rules) (file : Text)
    (lines : List Text) (link : Link) : Except Failure Treatment :=
  match Variant.find? present cwd rules file link.href with
  | .error failure => .error failure
  | .ok (some candidate) => patch cwd rules file link candidate
  | .ok none => .ok (report file lines link)

def treat (present : Text → Except Failure Bool) (cwd : Text) (rules : Rules) (file : Text)
    (lines : List Text) (link : Link) : Except Failure Treatment :=
  if Href.isSkipped rules.exclusions link.href then .ok Treatment.none
  else
    match Target.path? cwd rules.folders rules.root file (Href.withoutAnchor link.href) with
    | .error failure => .error failure
    | .ok target =>
      match present target with
      | .ok true => .ok Treatment.none
      | .ok false => treatMissing present cwd rules file lines link
      | .error failure => .error failure

def generate (present : Text → Except Failure Bool) (cwd : Text) (rules : Rules) (file : Text)
    (lines : List Text) (links : List Link) : Generation :=
  Generation.ofLinks (treat present cwd rules file lines) links

end Check

end Crosslink

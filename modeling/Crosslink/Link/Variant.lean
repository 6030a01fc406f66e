import Crosslink.Link.Target

namespace Crosslink

/-!
Other spellings of a link that climbs out of its directory.  Each variant leaves out
some of the leading segments, so the first one is the link as written and the later
ones climb less.
-/

namespace Variant

/-- A spelling that stays a path relative to the file. -/
def dotted (href : Text) : Text :=
  if href.startsWith ['.'] then href else '.' :: '/' :: href

/-- The link without so many leading segments. -/
def dropping (segments : List Text) (count : Nat) : Text :=
  dotted (Text.join ['/'] (segments.drop count))

/-- The variants of a link: none unless it begins by climbing, else one for every number
of segments up to the number of `..` segments. -/
def candidates (href : Text) : List Text :=
  if href.startsWith ['.', '.', '/'] then
    let segments := href.splitOn '/'
    (List.range (segments.count Path.up + 1)).map (dropping segments)
  else []

def find? (present : Text → Except Failure Bool) (cwd : Text) (rules : Rules) (file href : Text) :
    Except Failure (Option Text) :=
  (candidates href).findM? fun candidate =>
    present (Target.path cwd rules.folders rules.root file candidate)

end Variant

end Crosslink

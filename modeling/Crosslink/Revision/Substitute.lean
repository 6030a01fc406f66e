import Crosslink.Href.Kind
import Crosslink.Revision.Generation

namespace Crosslink

/-!
Exchanging the beginning of links.  The exchange is a matter of text alone: no target
is looked for.
-/

namespace Substitute

/-- Exchange the beginning of one link. -/
def treat (oldBase newBase : Text) (exclusions : List Text) (link : Link) :
    Except Failure Treatment :=
  let href := Href.slashed link.href
  if Href.isSkipped exclusions link.href || !Text.startsWith href oldBase then .ok Treatment.none
  else
    .ok
      { replacement? := some
          { line := link.line, oldHref := link.href
            newHref := newBase ++ href.drop oldBase.length, start? := link.start?
            stop? := link.stop?, kind? := some Replacement.pathSubstitution }
        broken? := none
        notes := [] }

/-- Exchange the beginning of the links of a file. -/
def generate (oldBase newBase : Text) (exclusions : List Text) (links : List Link) : Generation :=
  Generation.ofLinks (treat oldBase newBase exclusions) links

end Substitute

end Crosslink

import Crosslink.Link.Survey
import Crosslink.Link.Variant

namespace Crosslink
namespace Reach

/-!
The paths whose presence may be asked for when links are treated: the target of each link,
with its query and without, and the targets of its variants.  Whoever keeps only a part of
a tree at hand has to know about these.
-/

/-- The paths that may be asked for when a link of a file is treated. -/
def ofLink (cwd : Text) (rules : Rules) (found : FileLink) : List Text :=
  let href := found.link.href
  (Href.withoutAnchor href :: (Href.split href).path :: Variant.candidates href).map
    (Target.path cwd rules.folders rules.root found.file)

def readableLinks {σ : Type} [Files σ] (files : σ) (paths : List Text) : List FileLink :=
  paths.flatMap fun path => (Survey.ofFile files path).toOption.getD []

/-- The paths that may be asked for when the files that a path names are treated. -/
def ofPath {σ : Type} [Files σ] (files : σ) (cwd : Text) (rules : Rules) (path : Text) :
    List Text :=
  (readableLinks files ((Files.collect files path).toOption.getD [])).flatMap
    (ofLink cwd rules)

end Reach
end Crosslink

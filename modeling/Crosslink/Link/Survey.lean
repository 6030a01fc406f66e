import Crosslink.Files.Service
import Crosslink.Link.Extract

namespace Crosslink

/-!
The links of files and of whole trees, and the style in which most of them are written.
-/

namespace Survey

variable {σ : Type} [Files σ]

def ofFile (files : σ) (file : Text) : Except Failure (List FileLink) := do
  let content ← Files.read files file
  return (extractLinks content).map fun link => { file, link }

def ofFiles (files : σ) : List Text → Except Failure (List FileLink)
  | [] => .ok []
  | file :: rest => do
    let links ← ofFile files file
    let more ← ofFiles files rest
    return links ++ more

def ofDirectory (files : σ) (directory : Text) : Except Failure (List FileLink) := do
  let found ← Files.walk files directory
  ofFiles files found

/-- How most links of a tree are written. -/
inductive Style where
  | relative
  | absolute
  deriving Repr, DecidableEq

def Style.name : Style → Text
  | relative => "relative"
  | absolute => "absolute"

/-- The style of some links.  External links and those that only name an anchor do not
count; a tie is relative. -/
def style (links : List FileLink) : Style :=
  let counted := links.filter fun found =>
    !(Href.isExternal found.link.href || found.link.href.startsWith ['#'])
  let absolute := counted.countP fun found => found.link.href.startsWith ['/']
  if absolute ≤ counted.length - absolute then .relative else .absolute

def styleOf (files : σ) (directory : Text) : Except Failure Style :=
  (ofDirectory files directory).map style

end Survey

end Crosslink

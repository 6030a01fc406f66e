import Crosslink.Link.Basic
import Crosslink.Link.Location
import Crosslink.Markup.Inline.Span

namespace Crosslink

/-!
The links of a markdown text.  Links with their own destination and automatic links
are reported, in the order in which they open; a reference to a definition is none,
because its target is not written where the link is.
-/

open Markup

namespace Link

def ofAnchor (content : Text) (lines : List Text) (leaf : Leaf) (anchor : Anchor)
    (href text : Text) : Link :=
  let range? := (Location.of lines leaf anchor.destination).position?.bind
    (Location.hrefRange? content href)
  { href, text
    line := (Location.of lines leaf anchor.position).line + 1
    start? := range?.map fun range => (range.1 : Int)
    stop? := range?.map fun range => (range.2 : Int) }

def ofTokens (content : Text) (lines : List Text) (leaf : Leaf) : List Token → List Link
  | [] => []
  | token :: rest =>
    match token.event with
    | .linkOpen anchor =>
      match anchor.target? with
      | some href =>
        ofAnchor content lines leaf anchor href (linkText token.level rest)
          :: ofTokens content lines leaf rest
      | none => ofTokens content lines leaf rest
    | _ => ofTokens content lines leaf rest

end Link

/-- Every link of a markdown text in order. -/
def extractLinks (content : Text) : List Link :=
  let document := Document.ofText content
  let lines := content.splitOn '\n'
  document.leaves.flatMap fun leaf =>
    Link.ofTokens content lines leaf (inlineTokens document.labels leaf.content)

end Crosslink

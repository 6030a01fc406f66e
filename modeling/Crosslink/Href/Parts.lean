import Crosslink.Text.Basic

namespace Crosslink
namespace Href

/-!
An href is a path, then a query that begins with `?`, then an anchor that begins
with `#`.  The first `#` ends everything before it, so a `?` behind it belongs to
the anchor.  Cutting loses nothing: the three parts in order are the href.
-/

/-- The three parts of an href, each with its own mark. -/
structure Parts where
  /-- The path, without `?` and `#`. -/
  path : Text
  /-- The query with its `?`, or nothing. -/
  query : Text
  /-- The anchor with its `#`, or nothing. -/
  anchor : Text
  deriving Repr, DecidableEq

/-- The anchor of an href, with its `#`; empty if there is none. -/
def anchor (href : Text) : Text :=
  href.fromFirst '#'

def anchor? (href : Text) : Option Text :=
  if (anchor href).isEmpty then none else some (anchor href)

def withoutAnchor (href : Text) : Text :=
  href.before '#'

/-- Cut an href into path, query and anchor. -/
def split (href : Text) : Parts where
  path := (withoutAnchor href).before '?'
  query := (withoutAnchor href).fromFirst '?'
  anchor := anchor href

def slashed (href : Text) : Text :=
  href.replaceChar '\\' '/'

end Href

end Crosslink

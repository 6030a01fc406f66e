import Crosslink.Href.Kind

namespace Crosslink

/-!
A link of a markdown text: where it leads, what it says, and where it stands.
-/

/-- A link as it was found in a text. -/
structure Link where
  /-- Where the link leads, as written. -/
  href : Text
  /-- What stands directly inside the link. -/
  text : Text
  /-- The number of its line, counted from one. -/
  line : Int
  /-- Position of the first character of the href in the text, if it was located. -/
  start? : Option Int
  /-- Position behind the last character of the href, if it was located. -/
  stop? : Option Int
  deriving Repr, DecidableEq

structure FileLink where
  file : Text
  link : Link
  deriving Repr, DecidableEq

namespace FileLink

def kind (found : FileLink) : Href.Kind :=
  Href.kind found.link.href

def anchor? (found : FileLink) : Option Text :=
  Href.anchor? found.link.href

end FileLink

end Crosslink

import Crosslink.Path

namespace Crosslink

/-!
The rules under which links are resolved and revised.
-/

/-- Where links are anchored, and which of them are left alone. -/
structure Rules where
  /-- Names of folders; a link that begins with one of them is rooted already. -/
  folders : List Text
  /-- The directory that rooted links are read in, an absolute path. -/
  root : Text
  /-- Beginnings of hrefs that no revision touches. -/
  exclusions : List Text
  deriving Repr, DecidableEq

end Crosslink

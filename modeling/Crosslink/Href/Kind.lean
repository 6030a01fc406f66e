import Crosslink.Href.Parts
import Crosslink.Text.Blank
import Crosslink.Text.Letter

namespace Crosslink
namespace Href

/-!
What an href points at, judged by its spelling alone, and the hrefs that no
revision may touch: the empty one, those that leave the tree of files, those
that an exclusion prefix covers, and placeholders of the form `:name.md:`.
-/

inductive Kind where
  | relative
  | absolute
  | http
  | mailto
  | anchor
  | other
  deriving Repr, DecidableEq

namespace Kind

def name : Kind → Text
  | relative => "relative"
  | absolute => "absolute"
  | http => "http"
  | mailto => "mailto"
  | anchor => "anchor"
  | other => "other"

end Kind

/-- The href opens with `http:` or `https:`. -/
def hasWebScheme (href : Text) : Bool :=
  href.startsWithFolded "http:" || href.startsWithFolded "https:"

/-- The kind of an href; the first rule that matches decides. -/
def kind (href : Text) : Kind :=
  if href.isEmpty then .other
  else
    let trimmed := href.trim
    if trimmed.startsWith ['#'] then .anchor
    else if trimmed.startsWithFolded "http://" || trimmed.startsWithFolded "https://" then .http
    else if trimmed.startsWithFolded "mailto:" then .mailto
    else if trimmed.startsWith ['/'] then .absolute
    else .relative

/-- A character that may follow the first letter of a scheme. -/
def isSchemeChar (c : Char) : Bool :=
  isLatin c || isAsciiDigit c || c = '+' || c = '.' || c = '-'

def hasAuthority : Text → Bool
  | [] => false
  | c :: rest => isLatin c && Text.startsWith (rest.dropWhile isSchemeChar) "://"

/-- The href leaves the tree of files, or points into the document it stands in. -/
def isExternal (href : Text) : Bool :=
  let trimmed := href.trim
  hasWebScheme trimmed || trimmed.startsWithFolded "mailto:" || hasAuthority trimmed
    || trimmed.startsWith ['#']

/-- The rest of a placeholder behind its first colon: characters of one line, then
`.md:`, then nothing but possibly one line break. -/
def isPlaceholderTail : Text → Bool
  | [] => false
  | c :: rest =>
    (c :: rest = ".md:" || c :: rest = ".md:\n") || (c != '\n' && isPlaceholderTail rest)

/-- An internal marker `:name.md:`, never a real target. -/
def isPlaceholder : Text → Bool
  | ':' :: rest => isPlaceholderTail rest
  | _ => false

/-- No revision may touch this href. -/
def isSkipped (exclusions : List Text) (href : Text) : Bool :=
  href.isEmpty || isExternal href || exclusions.any (href.startsWith ·)
    || isPlaceholder href

end Href

end Crosslink

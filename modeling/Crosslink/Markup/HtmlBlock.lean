import Crosslink.Markup.Tag

namespace Crosslink
namespace Markup

/-!
Blocks of raw HTML.  Seven openings begin one, each with its own condition for the
line that ends it; the last of them cannot interrupt a paragraph.
-/

/-- How a block of raw HTML begins. -/
inductive HtmlOpening where
  /-- An element whose content is not markup. -/
  | verbatim
  | comment
  | instruction
  | declaration
  | characterData
  /-- An element of the block level. -/
  | element
  /-- Any complete tag alone on its line. -/
  | loneTag
  deriving Repr, DecidableEq

/-- Elements whose content is not markup. -/
def verbatimNames : List Text :=
  ["script", "pre", "style", "textarea"]

/-- Elements of the block level. -/
def blockNames : List Text :=
  List.map String.toList ["address", "article", "aside", "base", "basefont", "blockquote", "body", "caption",
   "center", "col", "colgroup", "dd", "details", "dialog", "dir", "div", "dl", "dt",
   "fieldset", "figcaption", "figure", "footer", "form", "frame", "frameset", "h1", "h2",
   "h3", "h4", "h5", "h6", "head", "header", "hr", "html", "iframe", "legend", "li", "link",
   "main", "menu", "menuitem", "nav", "noframes", "ol", "optgroup", "option", "p", "param",
   "search", "section", "summary", "table", "tbody", "td", "tfoot", "th", "thead", "title",
   "tr", "track", "ul"]

/-- The name of an element ends here: at the end of the line, at a blank or at the
bracket. -/
def endsName : Text → Bool
  | [] => true
  | c :: _ => c = '>' || isBlank c

/-- The text begins with one of the names, in either case, and a test holds of what
follows. -/
def beginsWithName (names : List Text) (follows : Text → Bool) (text : Text) : Bool :=
  names.any fun name =>
    match Text.afterFolded? name text with
    | some rest => follows rest
    | none => false

/-- The line is one complete tag, with blanks behind it. -/
def isLoneTag (line : Text) : Bool :=
  match openTag? line with
  | some rest => rest.all isBlank
  | none =>
    match closeTag? line with
    | some rest => rest.all isBlank
    | none => false

/-- What follows `<` and possibly a slash. -/
def afterTagStart? : Text → Option Text
  | '<' :: '/' :: rest => some rest
  | '<' :: rest => some rest
  | _ => none

/-- A capital ASCII letter comes first. -/
def beginsWithCapital : Text → Bool
  | c :: _ => 'A' ≤ c && c ≤ 'Z'
  | [] => false

def htmlOpening? (line : Text) : Option HtmlOpening :=
  match line with
  | '<' :: rest =>
    if beginsWithName verbatimNames endsName rest then some .verbatim
    else if line.startsWith "<!--" then some .comment
    else if line.startsWith "<?" then some .instruction
    else if Text.startsWith rest ['!'] && beginsWithCapital (rest.drop 1) then some .declaration
    else if line.startsWith "<![CDATA[" then some .characterData
    else if (afterTagStart? line).any
        (beginsWithName blockNames fun follows => endsName follows || follows.startsWith "/>")
      then some .element
    else if isLoneTag line then some .loneTag
    else none
  | _ => none

/-- The text holds, anywhere, the end of an element whose content is not markup. -/
def hasVerbatimEnd : Text → Bool
  | [] => false
  | c :: rest =>
    (c = '<' && Text.startsWith rest ['/']
      && beginsWithName verbatimNames (·.startsWith ['>']) (rest.drop 1))
      || hasVerbatimEnd rest

namespace HtmlOpening

def interrupts : HtmlOpening → Bool
  | loneTag => false
  | _ => true

def endsAt (opening : HtmlOpening) (line : Text) : Bool :=
  match opening with
  | verbatim => hasVerbatimEnd line
  | comment => (Text.find? "-->" line).isSome
  | instruction => (Text.find? "?>" line).isSome
  | declaration => line.contains '>'
  | characterData => (Text.find? "]]>" line).isSome
  | element => line.isEmpty
  | loneTag => line.isEmpty

end HtmlOpening

end Markup

end Crosslink

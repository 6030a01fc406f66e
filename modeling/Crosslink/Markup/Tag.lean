import Crosslink.Markup.Source
import Crosslink.Text.Letter

namespace Crosslink
namespace Markup

/-!
Raw HTML: opening and closing tags with their attributes, comments, processing
instructions, declarations and character data.  Each scan takes the text that
begins at the construct and hands back the text behind it.
-/

def isTagNameChar (c : Char) : Bool :=
  isAsciiLetter c || isAsciiDigit c || c = '-'

def isAttributeStart (c : Char) : Bool :=
  isAsciiLetter c || c = '_' || c = ':'

def isAttributeChar (c : Char) : Bool :=
  isAttributeStart c || isAsciiDigit c || c = '.' || c = '-'

/-- A character of an attribute's value without quotes. -/
def isUnquotedChar (c : Char) : Bool :=
  0x20 < c.toNat && c != '\x22' && c != '\x27' && c != '=' && c != '<' && c != '>'
    && c != '\x60'

/-- What may follow an unquoted value that begins here, the longest value first.
The blanks outside ASCII may belong to a value and may also end it. -/
def afterUnquoted : Text → List Text
  | [] => []
  | c :: rest =>
    if isUnquotedChar c then
      match afterUnquoted rest with
      | [] => [rest]
      | longer =>
        match rest with
        | d :: _ => if isBlank d then longer ++ [rest] else longer
        | [] => longer
    else []

/-- What may follow an attribute's value that begins here. -/
def afterValue (text : Text) : List Text :=
  match text with
  | '\x22' :: rest =>
    match Text.fromFirst '\x22' rest with
    | _ :: behind => [behind]
    | [] => []
  | '\x27' :: rest =>
    match Text.fromFirst '\x27' rest with
    | _ :: behind => [behind]
    | [] => []
  | _ => afterUnquoted text

/-- What may follow an attribute whose name ends here: its value, or nothing. -/
def afterAttributeName (text : Text) : List Text :=
  match text.trimStart with
  | '=' :: rest => afterValue (Text.trimStart rest) ++ [text]
  | _ => [text]

/-- The end of a tag: blanks, possibly a slash, and the bracket. -/
def tagClose? (text : Text) : Option Text :=
  match text.trimStart with
  | '/' :: '>' :: rest => some rest
  | '>' :: rest => some rest
  | _ => none

/-- Attributes and the end of an opening tag; at most so many attributes. -/
def attributesEnd? : Nat → Text → Option Text
  | 0, text => tagClose? text
  | most + 1, text =>
    match text, text.trimStart with
    | b :: _, c :: rest =>
      if isBlank b && isAttributeStart c then
        (afterAttributeName (rest.dropWhile isAttributeChar)).findSome? (attributesEnd? most)
      else tagClose? text
    | _, _ => none

def openTag? : Text → Option Text
  | '<' :: c :: rest =>
    if isAsciiLetter c then
      let behind := rest.dropWhile isTagNameChar
      attributesEnd? behind.length behind
    else none
  | _ => none

def closeTag? : Text → Option Text
  | '<' :: '/' :: c :: rest =>
    if isAsciiLetter c then
      match Text.trimStart (rest.dropWhile isTagNameChar) with
      | '>' :: behind => some behind
      | _ => none
    else none
  | _ => none

/-- The body of a comment up to its end.  A pair of hyphens that does not end the
comment takes the character behind it along. -/
def commentEnd? : Text → Option Text
  | '-' :: '-' :: c :: rest => if c = '>' then some rest else commentEnd? rest
  | ['-', '-'] => none
  | '-' :: _ :: rest => commentEnd? rest
  | ['-'] => none
  | _ :: rest => commentEnd? rest
  | [] => none

/-- What follows the first occurrence of a mark. -/
def behind? (mark text : Text) : Option Text :=
  (Text.find? mark text).map fun position => text.drop (position + mark.length)

/-- A comment, a processing instruction, a declaration or character data. -/
def specialTag? : Text → Option Text
  | '<' :: '!' :: '-' :: '-' :: rest =>
    match rest with
    | '>' :: behind => some behind
    | '-' :: '>' :: behind => some behind
    | _ => commentEnd? rest
  | '<' :: '?' :: rest => behind? "?>" rest
  | '<' :: '!' :: c :: rest =>
    if isAsciiLetter c then behind? ">" rest
    else if Text.startsWith (c :: rest) "[CDATA[" then behind? "]]>" ((c :: rest).drop 7)
    else none
  | _ => none

/-- Any construct of raw HTML. -/
def rawTag? (text : Text) : Option Text :=
  match openTag? text with
  | some rest => some rest
  | none =>
    match closeTag? text with
    | some rest => some rest
    | none => specialTag? text

end Markup

end Crosslink

import Crosslink.Text.Letter
import Crosslink.Text.Punctuation

namespace Crosslink
namespace Markup

/-!
What may stand between angle brackets as an automatic link: a URI with a scheme, or
an electronic mail address.
-/

/-- A text, or the text before the line break that it ends with. -/
def dropFinalBreak (text : Text) : Text :=
  if text.endsWith ['\n'] then text.dropLast else text

def isUriSchemeChar (c : Char) : Bool :=
  isAsciiLetter c || isAsciiDigit c || c = '+' || c = '.' || c = '-'

/-- A scheme of two to thirty-two characters, a colon, and characters that are neither
angle brackets nor spaces nor controls. -/
def isUri : Text → Bool
  | [] => false
  | c :: rest =>
    let scheme := rest.takeWhile isUriSchemeChar
    isAsciiLetter c && 1 ≤ scheme.length && scheme.length ≤ 31
      && match rest.drop scheme.length with
        | ':' :: body =>
          (dropFinalBreak body).all fun d => 0x20 < d.toNat && d != '<' && d != '>'
        | _ => false

/-- A character of the part of an address before `@`. -/
def isMailboxChar (c : Char) : Bool :=
  isAsciiLetter c || isAsciiDigit c || (".!#$%&'*+/=?^_\x60\x7b|\x7d~-" : Text).contains c

/-- A label of a domain: one to sixty-three letters, figures and hyphens, no hyphen at
either end. -/
def isDomainLabel (label : Text) : Bool :=
  1 ≤ label.length && label.length ≤ 63
    && label.all (fun c => isAsciiLetter c || isAsciiDigit c || c = '-')
    && !label.startsWith ['-'] && !label.endsWith ['-']

def isMailAddress (text : Text) : Bool :=
  let mailbox := text.takeWhile isMailboxChar
  !mailbox.isEmpty
    && match text.drop mailbox.length with
      | '@' :: domain => (Text.splitOn '.' (dropFinalBreak domain)).all isDomainLabel
      | _ => false

end Markup

end Crosslink

import Crosslink.Data.Yaml.Plain

namespace Crosslink
namespace Yaml

/-!
How a text is written: plain where that is unambiguous, else in single quotes, else in
double quotes with escapes.  A plain text has no space at its ends, no line break, and no
sign with a meaning of its own; single quotes cannot hold a space next to a line break,
nor a character that does not print.
-/

/-- How a text is written. -/
inductive Style where
  | plain
  | singleQuoted
  | doubleQuoted
  deriving Repr, DecidableEq

/-- A character that ends a line. -/
def isBreak (c : Char) : Bool :=
  c = '\n' || c = '\u0085' || c = '\u2028' || c = '\u2029'

/-- A character that can stand next to a sign without hiding it. -/
def isGap (c : Char) : Bool :=
  c = '\x00' || c = ' ' || c = '\t' || c = '\r' || isBreak c

def gapFollows : Text → Bool
  | [] => true
  | c :: _ => isGap c

/-- A character that is written as it is outside double quotes. -/
def isOrdinary (c : Char) : Bool :=
  c = '\n' || (' ' ≤ c && c ≤ '~') || c = '\u0085' || ('\u00A0' ≤ c && c ≤ '\uD7FF')
    || ('\uE000' ≤ c && c ≤ '\uFFFD' && c != '\uFEFF')
    || (0x10000 ≤ c.toNat && c.toNat < 0x10FFFF)

def leadingSigns : Text :=
  "#,[]{}&*!|>'\"%@\x60"

def beginsWithSign : Text → Bool
  | [] => false
  | c :: rest =>
    leadingSigns.contains c || ((c = '?' || c = ':' || c = '-') && gapFollows rest)

/-- Behind the first character, which is given: a colon with a gap behind it, or a number
sign with a gap before it. -/
def hidesSign (previous : Char) : Text → Bool
  | [] => false
  | c :: rest =>
    (c = ':' && gapFollows rest) || (c = '#' && isGap previous) || hidesSign c rest

/-- A sign with a meaning of its own stands somewhere in the text. -/
def hasSign (text : Text) : Bool :=
  text.startsWith ['-', '-', '-'] || text.startsWith ['.', '.', '.'] || beginsWithSign text
    || (match text with
      | [] => false
      | c :: rest => hidesSign c rest)

/-- A character of the first kind stands right before one of the second. -/
def hasPair (first second : Char → Bool) : Text → Bool
  | a :: b :: rest => (first a && second b) || hasPair first second (b :: rest)
  | _ => false

def isSpace (c : Char) : Bool :=
  c = ' '

/-- A character of that kind stands first or last. -/
def atEnds (test : Char → Bool) (text : Text) : Bool :=
  text.head?.any test || text.getLast?.any test

def allowsPlain (text : Text) : Bool :=
  !(atEnds isSpace text || text.any isBreak || !text.all isOrdinary || hasSign text)

/-- The text can be written in single quotes. -/
def allowsSingle (text : Text) : Bool :=
  !(hasPair isBreak isSpace text || hasPair isSpace isBreak text || !text.all isOrdinary)

/-- A name of a field of at most so many characters can stand on one line with its
value. -/
def longestName : Nat := 122

/-- The name of a field can stand on one line with its value. -/
def isInlineName (name : Text) : Bool :=
  !name.isEmpty && !name.any isBreak && name.length ≤ longestName

/-- How a text is written. -/
def styleOf (text : Text) : Style :=
  if readsAsText text && allowsPlain text then .plain
  else if allowsSingle text then .singleQuoted
  else .doubleQuoted

end Yaml

end Crosslink

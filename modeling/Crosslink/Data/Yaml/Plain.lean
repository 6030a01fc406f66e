import Crosslink.Text.Basic

namespace Crosslink
namespace Yaml

/-!
Plain texts that do not read back as texts.  A text without quotes that spells a truth
value, a number, a date, nothing, or one of three single signs is read as what it
spells, so such a text has to be quoted.
-/

def truthWords : List Text :=
  ["yes", "Yes", "YES", "no", "No", "NO", "true", "True", "TRUE", "false", "False", "FALSE",
    "on", "On", "ON", "off", "Off", "OFF"]

/-- Words that spell nothing. -/
def nullWords : List Text :=
  ["~", "null", "Null", "NULL", ""]

/-- Single signs with a meaning of their own. -/
def signs : List Text :=
  ["<<", "=", "!", "&", "*"]

def infinityWords : List Text :=
  [".inf", ".Inf", ".INF"]

def undefinedWords : List Text :=
  [".nan", ".NaN", ".NAN"]

def isSpacedDigit (c : Char) : Bool :=
  c.isDigit || c = '_'

/-- Without a sign in front. -/
def unsigned : Text → Text
  | '-' :: rest => rest
  | '+' :: rest => rest
  | text => text

/-- Not empty, and of nothing but characters that pass a test. -/
def isRun (test : Char → Bool) (text : Text) : Bool :=
  !text.isEmpty && text.all test

/-- Digits with underscores, the first of them a digit that passes a test. -/
def isNumeral (first : Char → Bool) : Text → Bool
  | c :: rest => c.isDigit && first c && rest.all isSpacedDigit
  | [] => false

def isOctalDigit (c : Char) : Bool :=
  ('0' ≤ c && c ≤ '7') || c = '_'

def isBinaryDigit (c : Char) : Bool :=
  c = '0' || c = '1' || c = '_'

/-- A hexadecimal digit, or an underscore between digits. -/
def isHexDigit (c : Char) : Bool :=
  c.isDigit || ('a' ≤ c && c ≤ 'f') || ('A' ≤ c && c ≤ 'F') || c = '_'

/-- A number below sixty of one or two digits. -/
def isSixtieth : Text → Bool
  | [a] => a.isDigit
  | [a, b] => '0' ≤ a && a ≤ '5' && b.isDigit
  | _ => false

/-- A numeral and numbers below sixty behind colons. -/
def isBaseSixty (first : Char → Bool) (text : Text) : Bool :=
  match text.splitOn ':' with
  | whole :: part :: parts => isNumeral first whole && (part :: parts).all isSixtieth
  | _ => false

def isUnsignedInteger (text : Text) : Bool :=
  match text with
  | ['0'] => true
  | '0' :: 'b' :: rest => isRun isBinaryDigit rest
  | '0' :: 'x' :: rest => isRun isHexDigit rest
  | '0' :: rest => isRun isOctalDigit rest
  | _ => isNumeral (· != '0') text || isBaseSixty (· != '0') text

def isInteger (text : Text) : Bool :=
  isUnsignedInteger (unsigned text)

def isPower : Text → Bool
  | [] => true
  | e :: sign :: rest =>
    (e = 'e' || e = 'E') && (sign = '-' || sign = '+') && isRun Char.isDigit rest
  | _ => false

/-- Behind a point: digits with underscores, and perhaps a power of ten. -/
def isFraction (text : Text) : Bool :=
  isPower (text.dropWhile isSpacedDigit)

/-- A number with a point that has digits before the point. -/
def isPointed (text : Text) : Bool :=
  match Text.fromFirst '.' text with
  | _ :: fraction =>
    let whole := text.before '.'
    (isNumeral (fun _ => true) whole && isFraction fraction)
      || (isBaseSixty (fun _ => true) whole && fraction.all isSpacedDigit)
  | [] => false

/-- A floating-point number. -/
def isFloating (text : Text) : Bool :=
  isPointed (unsigned text) || infinityWords.contains (unsigned text)
    || undefinedWords.contains text
    || (match text with
      | '.' :: c :: rest => c.isDigit && isFraction rest
      | _ => false)

/-- The rest behind digits, of which there are at least and at most so many. -/
def afterDigits? (least : Nat) : Nat → Text → Option Text
  | most + 1, c :: rest =>
    if c.isDigit then afterDigits? (least - 1) most rest
    else if least = 0 then some (c :: rest) else none
  | _, rest => if least = 0 then some rest else none

def after? (c : Char) : Text → Option Text
  | d :: rest => if c = d then some rest else none
  | [] => none

def isSpaceOrTab (c : Char) : Bool :=
  c = ' ' || c = '\t'

/-- Nothing, or the distance from the standard time. -/
def isZone (text : Text) : Bool :=
  match text.dropWhile isSpaceOrTab with
  | [] => text.isEmpty
  | ['Z'] => true
  | sign :: rest =>
    (sign = '-' || sign = '+') &&
      (match afterDigits? 1 2 rest with
      | some [] => true
      | some (':' :: rest) => afterDigits? 2 2 rest = some []
      | _ => false)

/-- The rest behind what stands between a day and a time. -/
def afterGap? : Text → Option Text
  | c :: rest =>
    if c = 'T' || c = 't' then some rest
    else if isSpaceOrTab c then some (rest.dropWhile isSpaceOrTab)
    else none
  | [] => none

/-- A time of day with a zone. -/
def isTime (text : Text) : Bool :=
  let seconds? := do
    let rest ← after? ':' (← afterDigits? 1 2 text)
    let rest ← after? ':' (← afterDigits? 2 2 rest)
    afterDigits? 2 2 rest
  match seconds? with
  | some ('.' :: rest) => isZone (rest.dropWhile Char.isDigit)
  | some rest => isZone rest
  | none => false

/-- A date, or a date with a time of day. -/
def isTimestamp (text : Text) : Bool :=
  let date? (least : Nat) : Option Text := do
    let rest ← after? '-' (← afterDigits? 4 4 text)
    let rest ← after? '-' (← afterDigits? least 2 rest)
    afterDigits? least 2 rest
  date? 2 = some [] ||
    (match (date? 1).bind afterGap? with
    | some rest => isTime rest
    | none => false)

/-- A text that reads back as itself if it is written plain. -/
def readsAsText (text : Text) : Bool :=
  !(truthWords.contains text || nullWords.contains text || signs.contains text
    || isInteger text || isFloating text || isTimestamp text)

end Yaml

end Crosslink

import Crosslink.Data.Json.Fault
import Crosslink.Data.Value

namespace Crosslink
namespace Json

/-!
Reading JSON.  Each reader takes the text from its own first character on and gives back
what it read with the text behind it.  Besides the standard forms there are words for the
floating-point numbers that have no digits, and of fields with one name the last value
counts, in the place of the first.

An escape may spell half of a pair that has no other half.  No text holds such a half, so
the reading ends there.  That is where the order of the faults is no longer that of the data:
a fault further on, or the name of the field that the half stands in, is not told.
-/

/-- Characters between the parts of a JSON text. -/
def isSpace (c : Char) : Bool :=
  c = ' ' || c = '\t' || c = '\n' || c = '\r'

/-- Without the space in front. -/
def skipSpace (text : Text) : Text :=
  text.dropWhile isSpace

def stop {α : Type} (reason : Reason) (rest : Text) : Except Fault α :=
  .error (.misplaced reason rest.length)

/-- The value of a hexadecimal digit. -/
def hexDigit? (c : Char) : Option Nat :=
  if '0' ≤ c ∧ c ≤ '9' then some (c.toNat - '0'.toNat)
  else if 'a' ≤ c ∧ c ≤ 'f' then some (c.toNat - 'a'.toNat + 10)
  else if 'A' ≤ c ∧ c ≤ 'F' then some (c.toNat - 'A'.toNat + 10)
  else none

/-- The number that four hexadecimal digits spell. -/
def unit? : Text → Option Nat
  | a :: b :: c :: d :: _ => do
    return (((← hexDigit? a) * 16 + (← hexDigit? b)) * 16 + (← hexDigit? c)) * 16
      + (← hexDigit? d)
  | _ => none

/-- The number is the first half of a pair that stands for one character. -/
def isHighHalf (unit : Nat) : Bool :=
  0xD800 ≤ unit && unit < 0xDC00

/-- The number is the second half of a pair that stands for one character. -/
def isLowHalf (unit : Nat) : Bool :=
  0xDC00 ≤ unit && unit < 0xE000

def charOfPair (high low : Nat) : Char :=
  Char.ofNat (0x10000 + (high - 0xD800) * 0x400 + (low - 0xDC00))

/-- The second half of a pair that follows its first half, if one does. -/
def lowHalf? (rest : Text) : Except Fault (Option Nat) :=
  match rest with
  | '\\' :: 'u' :: digits =>
    if digits.length ≤ 4 then .ok none
    else
      match unit? digits with
      | none => stop .badUnicodeEscape ('u' :: digits)
      | some low => .ok (if isLowHalf low then some low else none)
  | _ => .ok none

/-- The character that digits behind an escaping `u` stand for, and the number of
characters of its spelling. -/
def unicodeEscape (digits : Text) : Except Fault (Char × Nat) :=
  match if digits.length ≤ 4 then none else unit? digits with
  | none => stop .badUnicodeEscape ('u' :: digits)
  | some unit =>
    if isHighHalf unit then
      match lowHalf? (digits.drop 4) with
      | .error fault => .error fault
      | .ok (some low) => .ok (charOfPair unit low, 11)
      | .ok none => .error .unpaired
    else if isLowHalf unit then .error .unpaired
    else .ok (Char.ofNat unit, 5)

/-- The character that a letter behind a backslash stands for. -/
def simpleEscape? (c : Char) : Option Char :=
  match c with
  | '"' => some '"'
  | '\\' => some '\\'
  | '/' => some '/'
  | 'b' => some '\x08'
  | 'f' => some '\x0c'
  | 'n' => some '\n'
  | 'r' => some '\r'
  | 't' => some '\t'
  | _ => none

/-- The character that an escape stands for, and the number of characters of its spelling
behind the backslash. -/
def escape (opening : Nat) (rest : Text) : Except Fault (Char × Nat) :=
  match rest with
  | [] => .error (.misplaced .unterminatedText opening)
  | 'u' :: digits => unicodeEscape digits
  | c :: _ =>
    match simpleEscape? c with
    | some meant => .ok (meant, 1)
    | none => .error (.misplaced .badEscape (rest.length + 1))

/-- Read a text up to its closing quote, leaving out so many characters first; the
opening quote has so many characters from it to the end. -/
def readText (opening : Nat) : Nat → Text → Except Fault (Text × Text)
  | _, [] => .error (.misplaced .unterminatedText opening)
  | skip + 1, _ :: rest => readText opening skip rest
  | 0, c :: rest =>
    if c = '"' then .ok ([], rest)
    else if c = '\\' then do
      let (meant, used) ← escape opening rest
      let (text, rest) ← readText opening used rest
      return (meant :: text, rest)
    else if c < ' ' then stop .controlCharacter (c :: rest)
    else do
      let (text, rest) ← readText opening 0 rest
      return (c :: text, rest)

/-- The digits in front, and the rest. -/
def digits (text : Text) : Text × Text :=
  text.span Char.isDigit

/-- The number that digits spell. -/
def digitsValue (digits : Text) : Nat :=
  digits.foldl (fun n c => n * 10 + (c.toNat - '0'.toNat)) 0

/-- The digits before the point: a zero alone, or digits that begin with no zero. -/
def wholeDigits (text : Text) : Text × Text :=
  match text with
  | '0' :: rest => (['0'], rest)
  | _ => digits text

/-- The digits behind the point, if there is a point with digits. -/
def fractionDigits (text : Text) : Text × Text :=
  match text with
  | '.' :: rest => if (digits rest).1.isEmpty then ([], text) else digits rest
  | _ => ([], text)

def exponent? (text : Text) : Option (Int × Text) :=
  match text with
  | c :: rest =>
    if c = 'e' || c = 'E' then
      let (negative, rest) :=
        match rest with
        | '-' :: rest => (true, rest)
        | '+' :: rest => (false, rest)
        | _ => (false, rest)
      let (power, rest) := digits rest
      if power.isEmpty then none
      else some (if negative then -(digitsValue power : Int) else digitsValue power, rest)
    else none
  | [] => none

/-- Read a number without its sign; none if the text begins with no digit. -/
def readMagnitude (negative : Bool) (text : Text) : Option (Except Fault (Value × Text)) :=
  let (whole, rest) := wholeDigits text
  if whole.isEmpty then none
  else
    let (fraction, rest) := fractionDigits rest
    match fraction, exponent? rest with
    | [], none =>
      if digitLimit < whole.length then some (.error (.tooManyDigits whole.length))
      else
        let n : Int := digitsValue whole
        some (.ok (.integer (if negative then -n else n), rest))
    | fraction, found =>
      let (power, rest) := found.getD (0, rest)
      let number := Double.ofDecimal negative (digitsValue (whole ++ fraction))
        (power - fraction.length)
      some (.ok (.number number, rest))

def readNumber (text : Text) : Except Fault (Value × Text) :=
  let found? :=
    match text with
    | '-' :: rest => readMagnitude true rest
    | _ => readMagnitude false text
  found?.getD (stop .valueExpected text)

def words : List (Text × Value) :=
  [("null", .null), ("true", .boolean true), ("false", .boolean false),
    ("NaN", .number .undefined), ("Infinity", .number (.infinite false)),
    ("-Infinity", .number (.infinite true))]

/-- Read a word or a number. -/
def readScalar (text : Text) : Except Fault (Value × Text) :=
  match words.find? fun word => text.startsWith word.1 with
  | some word => .ok (word.2, text.drop word.1.length)
  | none => readNumber text

def readName (text : Text) : Except Fault (Text × Text) :=
  match text with
  | '"' :: rest => readText text.length 0 rest
  | _ => stop .nameExpected text

/-- Read the colon behind a name, and the space around it. -/
def readColon (text : Text) : Except Fault Text :=
  match skipSpace text with
  | ':' :: rest => .ok (skipSpace rest)
  | rest => stop .colonExpected rest

mutual

/-- Read a value, at most so many steps deep and long. -/
def readValue : Nat → Text → Except Fault (Value × Text)
  | 0, text => stop .valueExpected text
  | steps + 1, text =>
    match text with
    | '"' :: rest => do
      let (read, rest) ← readText text.length 0 rest
      return (.text read, rest)
    | '[' :: rest =>
      match skipSpace rest with
      | ']' :: rest => .ok (.list [], rest)
      | rest => do
        let (items, rest) ← readItems steps rest
        return (.list items, rest)
    | '{' :: rest =>
      match skipSpace rest with
      | '}' :: rest => .ok (.record [], rest)
      | rest => do
        let (fields, rest) ← readFields steps [] rest
        return (.record fields, rest)
    | _ => readScalar text

def readItems : Nat → Text → Except Fault (List Value × Text)
  | 0, text => stop .valueExpected text
  | steps + 1, text => do
    let (item, rest) ← readValue steps text
    match skipSpace rest with
    | ']' :: rest => return ([item], rest)
    | ',' :: rest => do
      let (items, rest) ← readItems steps (skipSpace rest)
      return (item :: items, rest)
    | rest => stop .commaExpected rest

/-- Read the fields of a record up to its closing brace, behind those read already. -/
def readFields : Nat → List (Text × Value) → Text → Except Fault (List (Text × Value) × Text)
  | 0, _, text => stop .nameExpected text
  | steps + 1, fields, text => do
    let (name, rest) ← readName text
    let rest ← readColon rest
    let (value, rest) ← readValue steps rest
    let fields := Value.setField name value fields
    match skipSpace rest with
    | '}' :: rest => return (fields, rest)
    | ',' :: rest => readFields steps fields (skipSpace rest)
    | rest => stop .commaExpected rest

end

/-- Read a whole text as one value.  Of two steps of the readers in a row one consumes a
character, so twice the length of the text bounds their number. -/
def read (text : Text) : Except Fault Value :=
  if text.startsWith ['\uFEFF'] then stop .byteOrderMark text
  else do
    let (value, rest) ← readValue (2 * text.length + 1) (skipSpace text)
    match skipSpace rest with
    | [] => return value
    | rest => stop .extraData rest

end Json

end Crosslink

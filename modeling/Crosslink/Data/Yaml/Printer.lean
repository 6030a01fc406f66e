import Crosslink.Data.Value
import Crosslink.Data.Yaml.Scalar
import Crosslink.Number.Decimal

namespace Crosslink
namespace Yaml

/-!
Writing structured data as block text.  Every field and every item has a line of its own,
each level is moved in by two spaces, and a list that is the value of a field stands right
below its name.
-/

/-- Every level is moved in by so many spaces. -/
def levelIndent : Nat := 2

/-- A power of ten asks for a point in front of it. -/
def withPoint (text : Text) : Text :=
  if text.contains '.' || !text.contains 'e' then text
  else text.before 'e' ++ '.' :: '0' :: Text.fromFirst 'e' text

def numberText : Double → Text
  | .finite negative mantissa exponent =>
    withPoint (Double.finiteText negative mantissa exponent)
  | .infinite negative => Double.signText negative ++ (".inf" : Text)
  | .undefined => ".nan"

/-- Write a list or a record without contents. -/
def writeEmpty (opening closing : Char) (pen : Pen) : Pen :=
  (pen.sign true [opening]).sign false [closing]

/-- The column of the items of a list: that of the field whose value the list is, if it
stands behind the name on one line. -/
def itemIndent (inField : Bool) (indent : Nat) (pen : Pen) : Nat :=
  if inField && !pen.fresh then indent else indent + levelIndent

/-- Write the name of a field and what stands between the name and the value. -/
def writeName (indent : Nat) (name : Text) (pen : Pen) : Pen :=
  let pen := pen.indent indent
  if isInlineName name then (writeText false (indent + levelIndent) name pen).sign false [':']
  else
    ((writeText true (indent + levelIndent) name (pen.mark ['?'])).indent indent).mark [':']

mutual

/-- Write a value inside a block that stands at a column. -/
def writeValue (inField : Bool) (indent : Nat) : Value → Pen → Pen
  | .null, pen => writePlain true (indent + levelIndent) "null" pen
  | .boolean true, pen => writePlain true (indent + levelIndent) "true" pen
  | .boolean false, pen => writePlain true (indent + levelIndent) "false" pen
  | .integer n, pen => writePlain true (indent + levelIndent) (Text.ofInt n) pen
  | .number x, pen => writePlain true (indent + levelIndent) (numberText x) pen
  | .text t, pen => writeText true (indent + levelIndent) t pen
  | .list [], pen => writeEmpty '[' ']' pen
  | .list (item :: items), pen =>
    writeItems (itemIndent inField indent pen) (item :: items) pen
  | .record [], pen => writeEmpty '\x7b' '\x7d' pen
  | .record (field :: fields), pen =>
    writeFields (indent + levelIndent) (field :: fields) pen

def writeItems (indent : Nat) : List Value → Pen → Pen
  | [], pen => pen
  | item :: items, pen =>
    writeItems indent items (writeValue false indent item ((pen.indent indent).mark ['-']))

def writeFields (indent : Nat) : List (Text × Value) → Pen → Pen
  | [], pen => pen
  | (name, value) :: fields, pen =>
    writeFields indent fields (writeValue true indent value (writeName indent name pen))

end

/-- A record as a document of its own. -/
def print (fields : List (Text × Value)) : Text :=
  if fields.isEmpty then ['\x7b', '\x7d', '\n']
  else (((writeFields 0 fields Pen.start).indent 0).written).reverse

end Yaml

end Crosslink

import Crosslink.Data.Value
import Crosslink.Schema.Mismatch
import Crosslink.Schema.Numeral

namespace Crosslink
namespace Schema

/-!
The shapes that structured data is checked against.  A check takes over what has the
shape, and what plainly stands for it: a numeral for its integer, a word such as `yes`
for its truth value.  Fields that no one asked for are dropped, missing ones get their
default, and the result has the fields in the order of the schema.
-/

/-- What a value may be. -/
inductive Shape where
  | text
  | integer
  | boolean
  | anything
  /-- A list whose items have a shape. -/
  | listOf (item : Shape)
  /-- A record whose fields have a shape, whatever they are called. -/
  | recordOf (field : Shape)
  deriving Repr, DecidableEq

/-- An integer that comes from a floating-point number lies between these bounds. -/
def integerBound : Int := Int.pow 2 63

/-- The integer that a finite floating-point number equals. -/
def integerOfNumber (number : Double) : Except Difference Int :=
  match number with
  | .finite .. =>
    match number.toInt? with
    | none => .error .fractional
    | some n =>
      if -integerBound < n && n < integerBound then .ok n else .error .oversized
  | _ => .error .notFinite

def integerOf : Value → Except Difference Int
  | .integer n => .ok n
  | .boolean value => .ok (if value then 1 else 0)
  | .number x => integerOfNumber x
  | .text t =>
    if Numeral.lengthLimit < t.length then .error .oversized
    else
      match Numeral.toInt? t with
      | some n => .ok n
      | none => .error .notNumeral
  | _ => .error .notInteger

def falseWords : List Text :=
  ["0", "f", "n", "no", "off", "false"]

def trueWords : List Text :=
  ["1", "t", "y", "on", "yes", "true"]

/-- The truth value that an integer stands for. -/
def booleanOfInteger (n : Int) : Except Difference Bool :=
  if n = 0 then .ok false else if n = 1 then .ok true else .error .notTruthWord

def booleanOf : Value → Except Difference Bool
  | .boolean value => .ok value
  | .text t =>
    let word := t.map Char.toLower
    if falseWords.contains word then .ok false
    else if trueWords.contains word then .ok true
    else .error .notTruthWord
  | .integer n =>
    if -integerBound ≤ n && n < integerBound then booleanOfInteger n else .error .notBoolean
  | .number x =>
    match integerOfNumber x with
    | .ok n => booleanOfInteger n
    | .error _ => .error .notBoolean
  | _ => .error .notBoolean

def checkedHere {α : Type} (build : α → Value) : Except Difference α → Checked Value
  | .ok a => .ok (build a)
  | .error difference => .error [Mismatch.here difference]

/-- Take over a value that has a shape or stands for one that has it. -/
def check : Shape → Value → Checked Value
  | .anything, value => .ok value
  | .text, .text t => .ok (.text t)
  | .text, _ => .error [Mismatch.here .notText]
  | .integer, value => checkedHere .integer (integerOf value)
  | .boolean, value => checkedHere .boolean (booleanOf value)
  | .listOf item, .list items =>
    (Checked.all (items.mapIdx fun index value =>
      Checked.below (.item index) (check item value))).map .list
  | .listOf _, _ => .error [Mismatch.here .notList]
  | .recordOf shape, .record fields =>
    (Checked.all (fields.map fun field =>
      (Checked.below (.field field.1) (check shape field.2)).map
        fun value => (field.1, value))).map .record
  | .recordOf _, _ => .error [Mismatch.here .notRecord]

structure Field where
  /-- The name of the field. -/
  name : Text
  /-- What its value may be. -/
  shape : Shape
  /-- The value it has where it is missing; without one it must not be missing. -/
  default? : Option Value
  deriving Repr

namespace Field

def required (name : Text) (shape : Shape) : Field where
  name
  shape
  default? := none

def listing (name : Text) (item : Shape) : Field where
  name
  shape := .listOf item
  default? := some (.list [])

def checkIn (field : Field) (fields : List (Text × Value)) : Checked Value :=
  Checked.below (.field field.name)
    (match Value.lookup? field.name fields with
    | some value => check field.shape value
    | none =>
      match field.default? with
      | some value => .ok value
      | none => .error [Mismatch.here .missing])

end Field

def fill (schema : List Field) (fields : List (Text × Value)) : Checked (List (Text × Value)) :=
  Checked.all (schema.map fun field =>
    (field.checkIn fields).map fun value => (field.name, value))

/-- A mismatch for each field of a record that is not among some names. -/
def unexpectedFields (names : List Text) (fields : List (Text × Value)) : List Mismatch :=
  (fields.filter fun field => !names.contains field.1).map fun field =>
    { location := [.field field.1], difference := .unexpected }

end Schema

end Crosslink

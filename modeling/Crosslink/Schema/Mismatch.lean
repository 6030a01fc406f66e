import Crosslink.Text.Basic

namespace Crosslink
namespace Schema

/-!
Where structured data differs from what is expected of it, and how.
-/

/-- One step on the way into structured data. -/
inductive Step where
  | field (name : Text)
  | item (index : Nat)
  deriving Repr, DecidableEq

def Step.text : Step → Text
  | field name => name
  | item index => Text.ofNat index

/-- How a value differs from what is expected. -/
inductive Difference where
  /-- A field that has to be there is missing. -/
  | missing
  /-- A field is there that no one asked for. -/
  | unexpected
  | notText
  | notList
  | notRecord
  /-- The value is no record of the named kind. -/
  | notRecordOf (name : Text)
  | notInteger
  /-- A text that spells no integer. -/
  | notNumeral
  /-- A number with a fractional part. -/
  | fractional
  /-- An integer that is too large to be taken over. -/
  | oversized
  /-- A floating-point number that is not finite. -/
  | notFinite
  | notBoolean
  /-- A value that could be a truth value but names none. -/
  | notTruthWord
  /-- The value is none of some texts. -/
  | notOneOf (choices : List Text)
  /-- A rule of its own that the value breaks. -/
  | refused (reason : Text)
  deriving Repr, DecidableEq

/-- Texts in single quotes, separated by commas, the last one by a word. -/
def choicesText : List Text → Text
  | [] => []
  | [only] => '\x27' :: only ++ ['\x27']
  | [next, last] => ('\x27' :: next ++ ['\x27']) ++ (" or " : Text) ++ ('\x27' :: last ++ ['\x27'])
  | first :: rest => ('\x27' :: first ++ ['\x27']) ++ (", " : Text) ++ choicesText rest

namespace Difference

/-- The short name of a difference. -/
def code : Difference → Text
  | missing => "missing"
  | unexpected => "extra_forbidden"
  | notText => "string_type"
  | notList => "list_type"
  | notRecord => "dict_type"
  | notRecordOf _ => "model_type"
  | notInteger => "int_type"
  | notNumeral => "int_parsing"
  | fractional => "int_from_float"
  | oversized => "int_parsing_size"
  | notFinite => "finite_number"
  | notBoolean => "bool_type"
  | notTruthWord => "bool_parsing"
  | notOneOf _ => "literal_error"
  | refused _ => "value_error"

def message : Difference → Text
  | missing => "Field required"
  | unexpected => "Extra inputs are not permitted"
  | notText => "Input should be a valid string"
  | notList => "Input should be a valid list"
  | notRecord => "Input should be a valid dictionary"
  | notRecordOf name =>
    ("Input should be a valid dictionary or instance of " : Text) ++ name
  | notInteger => "Input should be a valid integer"
  | notNumeral => "Input should be a valid integer, unable to parse string as an integer"
  | fractional => "Input should be a valid integer, got a number with a fractional part"
  | oversized => "Unable to parse input string as an integer, exceeded maximum size"
  | notFinite => "Input should be a finite number"
  | notBoolean => "Input should be a valid boolean"
  | notTruthWord => "Input should be a valid boolean, unable to interpret input"
  | notOneOf choices => ("Input should be " : Text) ++ choicesText choices
  | refused reason => ("Value error, " : Text) ++ reason

end Difference

/-- A difference and the place where it is. -/
structure Mismatch where
  /-- The way from the top to the place. -/
  location : List Step
  difference : Difference
  deriving Repr, DecidableEq

namespace Mismatch

def here (difference : Difference) : Mismatch where
  location := []
  difference

def below (step : Step) (mismatch : Mismatch) : Mismatch :=
  { mismatch with location := step :: mismatch.location }

/-- The mismatch on one line, behind the way to its place. -/
def message (mismatch : Mismatch) : Text :=
  let way := Text.join ['.'] (mismatch.location.map Step.text)
  if way.isEmpty then mismatch.difference.message
  else way ++ (": " : Text) ++ mismatch.difference.message

end Mismatch

/-- A result, or all the differences that stand against it. -/
abbrev Checked (α : Type) := Except (List Mismatch) α

namespace Checked

/-- The differences. -/
def mismatches {α : Type} : Checked α → List Mismatch
  | .ok _ => []
  | .error mismatches => mismatches

/-- Look at a result from one step further up. -/
def below {α : Type} (step : Step) : Checked α → Checked α
  | .ok a => .ok a
  | .error mismatches => .error (mismatches.map (Mismatch.below step))

/-- Two results, or the differences that stand against either. -/
def both {α β : Type} : Checked α → Checked β → Checked (α × β)
  | .ok a, .ok b => .ok (a, b)
  | first, second => .error (mismatches first ++ mismatches second)

/-- All results, or all differences. -/
def all {α : Type} : List (Checked α) → Checked (List α)
  | [] => .ok []
  | first :: rest =>
    match both first (all rest) with
    | .ok (a, as) => .ok (a :: as)
    | .error mismatches => .error mismatches

end Checked

end Schema

end Crosslink

import Crosslink.Number.Double
import Crosslink.Text.Basic

namespace Crosslink

/-!
Structured data: what a configuration file holds, and what a command reports.  The
fields of a record have an order, and looking a field up finds the first of its name.
-/

/-- A piece of structured data. -/
inductive Value where
  | null
  | boolean (value : Bool)
  | integer (value : Int)
  | number (value : Double)
  | text (value : Text)
  | list (items : List Value)
  | record (fields : List (Text × Value))
  deriving Repr, BEq

namespace Value

def lookup? (name : Text) : List (Text × Value) → Option Value
  | [] => none
  | field :: rest => if field.1 = name then some field.2 else lookup? name rest

/-- Set a field: in its place if there is one of that name, else behind all others. -/
def setField (name : Text) (value : Value) : List (Text × Value) → List (Text × Value)
  | [] => [(name, value)]
  | field :: rest =>
    if field.1 = name then (name, value) :: rest else field :: setField name value rest

def texts (items : List Text) : Value :=
  .list (items.map .text)

def natural (n : Nat) : Value :=
  .integer n

def optional {α : Type} (present : α → Value) : Option α → Value
  | some a => present a
  | none => .null

end Value

end Crosslink

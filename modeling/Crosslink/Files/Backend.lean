import Crosslink.Text.Quoted

namespace Crosslink

/-!
The kinds of collections of files that can be asked for by name.
-/

/-- Where a collection of files lives. -/
inductive Backend where
  | localDisk
  | memory
  deriving Repr, DecidableEq

namespace Backend

/-- All kinds. -/
def all : List Backend := [localDisk, memory]

def name : Backend → Text
  | localDisk => "local"
  | memory => "memory"

/-- Why a name is refused. -/
def unsupported (name : Text) : Text :=
  ("Unsupported file service type: " : Text) ++ Text.quoted name
    ++ (" (supported: [" : Text)
    ++ Text.join [',', ' '] (all.map fun backend => Text.quoted backend.name) ++ [']', ')']

def ofName (text : Text) : Except Text Backend :=
  match all.find? fun backend => backend.name = text with
  | some backend => .ok backend
  | none => .error (unsupported text)

end Backend

end Crosslink

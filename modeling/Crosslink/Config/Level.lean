import Crosslink.Text.Basic

namespace Crosslink

/-!
How much is written to the log.
-/

inductive Level where
  | debug
  | info
  | warn
  | error
  deriving Repr, DecidableEq

namespace Level

def all : List Level := [debug, info, warn, error]

def name : Level → Text
  | debug => "DEBUG"
  | info => "INFO"
  | warn => "WARN"
  | error => "ERROR"

def ofName? (text : Text) : Option Level :=
  all.find? fun level => level.name = text

end Level

end Crosslink

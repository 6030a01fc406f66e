import Crosslink.Command.Check
import Crosslink.Command.Config
import Crosslink.Command.Normalize
import Crosslink.Command.Show
import Crosslink.Command.Style
import Crosslink.Command.Substitute

namespace Crosslink

/-!
The commands with their arguments, and what each of them does.
-/

inductive Command where
  | links (path : Text)
  | check (path : Text) (fix : Bool) (root? : Option Text)
  | normalize (path : Text) (dryRun : Bool) (root? : Option Text)
  | substitute (path oldBase newBase : Text) (dryRun : Bool)
  | style (path : Text)
  | config (name : Text)
  deriving Repr, DecidableEq

namespace Command

def fullName : Command → Text × Text
  | links _ => ("link", "show")
  | check .. => ("link", "check")
  | normalize .. => ("link", "normalize")
  | substitute .. => ("link", "substitute")
  | style _ => ("link", "style")
  | config _ => ("config", "show")

def run (environment : Environment) (disk : Disk) : Command → Run
  | links path => listLinks disk path
  | check path fix root? => checkLinks environment disk path fix root?
  | normalize path dryRun root? => normalizeLinks environment disk path dryRun root?
  | substitute path oldBase newBase dryRun =>
    substituteLinks environment disk path oldBase newBase dryRun
  | style path => tellStyle disk path
  | config name => showConfig environment disk name

def path? : Command → Option Text
  | links path => some path
  | check path _ _ => some path
  | normalize path _ _ => some path
  | substitute path _ _ _ => some path
  | style path => some path
  | config _ => none

/-- The root that a command is given in place of the configured one. -/
def root? : Command → Option Text
  | check _ _ root? => root?
  | normalize _ _ root? => root?
  | _ => none

end Command

end Crosslink

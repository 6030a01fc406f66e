import Crosslink.Proofs.Command.Reporting
import Crosslink.Proofs.Config.Load

namespace Crosslink

/-!
What commands make of a configuration that cannot be loaded.  No file is touched then.  A fault of
the configuration is the one error of a report; what is no fault of it ends the command, and there
is no report.  As to a configuration file that is there, the line between the two is drawn by its
bytes: they ask for a root in the home directory of a user who has none, or they do not.
-/

namespace TreeRevision

variable {revision : TreeRevision} {command : Command} {environment : Environment} {disk : Disk}
variable {fault : LoadFault}

end TreeRevision

namespace Command

variable {environment : Environment} {disk : Disk} {path name : Text} {fault : LoadFault}

end Command
end Crosslink

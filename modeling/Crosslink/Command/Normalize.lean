import Crosslink.Command.Basic

namespace Crosslink
namespace Command

/-!
Writing the links of a tree in their canonical form.
-/

def normalizing (cwd path : Text) (dryRun : Bool) (root? : Option Text) : TreeRevision where
  announce := ("Normalizing links in " : Text) ++ path ++ ("..." : Text)
  started := Progress.tenths 3 "Normalizing links..."
  path
  root?
  rule := Batch.normalizing cwd
  write := !dryRun
  extra _ := [("dry_run", .boolean dryRun)]
  result := Report.linksInFiles (if dryRun then "Would normalize" else "Normalized")
  success summary := summary.failures.isEmpty

/-- Write links in their canonical form. -/
def normalizeLinks (environment : Environment) (disk : Disk) (path : Text) (dryRun : Bool)
    (root? : Option Text) : Run :=
  (normalizing environment.surroundings.cwd path dryRun root?).run environment disk

end Command

end Crosslink

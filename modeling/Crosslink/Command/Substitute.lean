import Crosslink.Command.Basic

namespace Crosslink
namespace Command

/-!
Exchanging the beginning of the links of a tree.
-/

def substituting (path oldBase newBase : Text) (dryRun : Bool) : TreeRevision where
  announce :=
    ("Substituting '" : Text) ++ oldBase ++ ("' with '" : Text) ++ newBase ++ ("' in " : Text)
      ++ path ++ ("..." : Text)
  started := Progress.tenths 4 "Substituting paths..."
  path
  root? := none
  rule rules := Batch.substituting oldBase newBase rules.exclusions
  write := !dryRun
  extra _ :=
    [("old_base", .text oldBase), ("new_base", .text newBase), ("dry_run", .boolean dryRun)]
  result := Report.linksInFiles (if dryRun then "Would substitute" else "Substituted")
  success summary := summary.failures.isEmpty

/-- Exchange the beginning of links, which must not be empty. -/
def substituteLinks (environment : Environment) (disk : Disk) (path oldBase newBase : Text)
    (dryRun : Bool) : Run :=
  let work := substituting path oldBase newBase dryRun
  if oldBase.isEmpty then
    Run.ofEnding work.announce [TreeRevision.loading] disk
      (.ok (work.refusal (disk.resolve path) "old_base must not be empty"
        "Nothing to substitute: old_base is empty"))
  else work.run environment disk

end Command

end Crosslink

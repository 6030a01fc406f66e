import Crosslink.Command.Basic

namespace Crosslink
namespace Command

/-!
Reporting the links whose target is missing, and repairing those that climb too far.
-/

def brokenRecord (broken : BrokenLink) : Value :=
  .record
    [("type", .text BrokenLink.type), ("file", .text broken.file),
      ("lineNumber", .integer broken.lineNumber), ("line", .text broken.line)]

def checkFields (fix : Bool) (broken : List BrokenLink) : List (Text × Value) :=
  [("fix", .boolean fix), ("broken_links", .list (broken.map brokenRecord))]

/-- How many links are broken, and how many could be repaired. -/
def checkResult (fix : Bool) (summary : Batch.Summary) : Text :=
  ("Checked " : Text) ++ Text.ofNat summary.processed ++ (" file(s): " : Text)
    ++ Text.ofNat summary.broken.length ++ (" broken link(s), " : Text)
    ++ (if fix then ("Patched " : Text) else ("Patchable " : Text))
    ++ Text.ofNat (summary.tally.count Replacement.patched)

def checkAnnounce (path : Text) (fix : Bool) : Text :=
  (if fix then ("Checking and fixing links in " : Text) else ("Checking links in " : Text))
    ++ path ++ ("..." : Text)

def checking (cwd path : Text) (fix : Bool) (root? : Option Text) : TreeRevision where
  announce := checkAnnounce path fix
  started := Progress.tenths 3 "Checking links..."
  path
  root?
  rule := Batch.checking cwd
  write := fix
  extra := checkFields fix
  result := checkResult fix
  success summary := summary.broken.isEmpty && summary.failures.isEmpty

/-- Report broken links, and repair them if that is wanted. -/
def checkLinks (environment : Environment) (disk : Disk) (path : Text) (fix : Bool)
    (root? : Option Text) : Run :=
  (checking environment.surroundings.cwd path fix root?).run environment disk

end Command

end Crosslink

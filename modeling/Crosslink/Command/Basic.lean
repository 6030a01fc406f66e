import Crosslink.Config.Load
import Crosslink.Revision.Batch

namespace Crosslink

/-!
What a command does before the eyes of its user: it announces itself, tells how far it
has come, and ends with a report, unless something stops it that it does not report.
-/

/-- How far a command has come. -/
structure Progress where
  /-- The share of the work that is done. -/
  fraction : Double
  /-- What is done next. -/
  message : Text
  deriving Repr, DecidableEq

namespace Progress

/-- So many tenths of the work are done. -/
def tenths (count : Nat) (message : Text) : Progress where
  fraction := Double.ofDecimal false count (-1)
  message

/-- All the work is done. -/
def complete : Progress :=
  tenths 10 "Complete"

end Progress

/-- What a command has found out or done. -/
structure Report where
  /-- The result in a sentence. -/
  result : Text
  /-- The result as data. -/
  output : List (Text × Value)
  /-- Nothing is wrong. -/
  success : Bool
  deriving Repr, BEq

structure Run where
  announce : Text
  /-- How far it came, step by step. -/
  progress : List Progress
  /-- Its report, or what stopped it. -/
  ending : Except Failure Report
  notes : List Note
  /-- The tree after it. -/
  disk : Disk

namespace Run

/-- A command that changed nothing. -/
def ofEnding (announce : Text) (progress : List Progress) (disk : Disk)
    (ending : Except Failure Report) : Run where
  announce
  progress
  ending
  notes := []
  disk

end Run

namespace Report

/-- The fields that every report begins with, in front of its own. -/
def opening (errors : List Text) (rest : List (Text × Value)) : List (Text × Value) :=
  ("errors", Value.texts errors) :: ("warnings", Value.texts []) :: rest

/-- A report on something that went wrong. -/
def failed (result : Text) (output : List (Text × Value)) : Report where
  result
  output
  success := false

/-- A path of a file and what went wrong there. -/
def errorLine (failure : Text × Failure) : Text :=
  failure.1 ++ (": " : Text) ++ failure.2.message

/-- The fields of a report on a run over many files. -/
def batchOutput (target : Text) (errors : List Text) (summary : Batch.Summary) :
    List (Text × Value) :=
  opening errors
    [("path", .text target), ("total_files", .natural summary.total),
      ("processed_files", .natural summary.processed),
      ("total_replacements_applied", .natural summary.applied),
      ("by_kind", .record (summary.tally.map fun entry => (entry.1, .natural entry.2))),
      ("modified_files", Value.texts summary.modified)]

/-- The fields of a report on a run that did not come to any file. -/
def emptyOutput (target error : Text) : List (Text × Value) :=
  batchOutput target [error] (Batch.summarize [])

/-- The fields of a report on a run that came to an end. -/
def fullOutput (target : Text) (summary : Batch.Summary) : List (Text × Value) :=
  batchOutput target (summary.failures.map errorLine) summary

end Report

/-- What the three commands that revise links have in common: the rules are loaded, the
files are run over, and the run is reported. -/
structure TreeRevision where
  /-- What the command announces. -/
  announce : Text
  /-- How far it has come when the rules are loaded, and what it does then. -/
  started : Progress
  /-- The path as the user gave it. -/
  path : Text
  /-- Another root than the configured one. -/
  root? : Option Text
  /-- The rule that makes replacements. -/
  rule : Rules → Rule Shelf
  /-- Changed files are written back. -/
  write : Bool
  /-- The fields of the report that are its own. -/
  extra : List BrokenLink → List (Text × Value)
  /-- The result in a sentence. -/
  result : Batch.Summary → Text
  /-- Nothing is wrong. -/
  success : Batch.Summary → Bool

namespace TreeRevision

def loading : Progress :=
  Progress.tenths 1 "Loading configuration..."

/-- The report that something went wrong before any file was looked at. -/
def refusal (revision : TreeRevision) (target error result : Text) : Report :=
  Report.failed result (Report.emptyOutput target error ++ revision.extra [])

/-- The report on a run that came to an end. -/
def summary (revision : TreeRevision) (target : Text) (summary : Batch.Summary) : Report where
  result := revision.result summary
  output := Report.fullOutput target summary ++ revision.extra summary.broken
  success := revision.success summary

/-- The command stops while it loads its rules. -/
def unconfigured (revision : TreeRevision) (disk : Disk) (target : Text) (fault : LoadFault) :
    Run :=
  Run.ofEnding revision.announce [loading] disk
    (match fault.stop? with
    | some failure => .error failure
    | none =>
      .ok (revision.refusal target fault.message
        (("Configuration error: " : Text) ++ fault.message)))

def runOver (revision : TreeRevision) (disk : Disk) (target : Text) (rules : Rules) : Run :=
  let (found, shelf) :=
    Batch.processPath (Shelf.ofDisk disk) (revision.rule rules) revision.write target
  match found with
  | .ok records =>
    { announce := revision.announce
      progress := [loading, revision.started, Progress.complete]
      ending := .ok (revision.summary target (Batch.summarize records))
      notes := Batch.notes records
      disk := shelf.disk }
  | .error failure =>
    Run.ofEnding revision.announce [loading, revision.started] shelf.disk
      (if failure.isAbsence then
        .ok (revision.refusal target failure.message
          (("Path not found: " : Text) ++ revision.path))
      else .error failure)

def run (revision : TreeRevision) (environment : Environment) (disk : Disk) : Run :=
  let target := disk.resolve revision.path
  match Settings.loadRules environment disk revision.root? with
  | .error fault => revision.unconfigured disk target fault
  | .ok rules => revision.runOver disk target rules

end TreeRevision

namespace Report

def linksInFiles (opening : Text) (summary : Batch.Summary) : Text :=
  opening ++ ' ' :: Text.ofNat summary.applied ++ (" link(s) in " : Text)
    ++ Text.ofNat summary.modified.length ++ (" file(s)" : Text)

end Report

end Crosslink

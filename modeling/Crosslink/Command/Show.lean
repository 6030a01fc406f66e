import Crosslink.Command.Basic
import Crosslink.Link.Survey

namespace Crosslink
namespace Command

/-!
Listing the links of one file.
-/

/-- A link with its kind and its anchor as data. -/
def linkRecord (found : FileLink) : Value :=
  .record
    [("file_path", .text found.file), ("href", .text found.link.href),
      ("text", .text found.link.text), ("line", .integer found.link.line),
      ("start", Value.optional .integer found.link.start?),
      ("end", Value.optional .integer found.link.stop?), ("type", .text found.kind.name),
      ("anchor", Value.optional .text found.anchor?)]

def showOutput (errors : List Text) (target : Text) (links : List FileLink) :
    List (Text × Value) :=
  Report.opening errors
    [("path", .text target), ("links", .list (links.map linkRecord)),
      ("count", .natural links.length)]

/-- The report on a file that could not be read. -/
def unreadable (path target : Text) (failure : Failure) : Except Failure Report :=
  if failure.isOrdinary then
    .ok (Report.failed
      (("Cannot read " : Text) ++ path ++ (": " : Text) ++ failure.message)
      (showOutput [failure.message] target []))
  else .error failure

def listing (path target : Text) (links : List FileLink) : Report where
  result := ("Found " : Text) ++ Text.ofNat links.length ++ (" link(s) in " : Text) ++ path
  output := showOutput [] target links
  success := true

def listLinks (disk : Disk) (path : Text) : Run :=
  let announce := ("Showing links in " : Text) ++ path ++ ("..." : Text)
  let progress :=
    [Progress.tenths 2 "Resolving path...", Progress.tenths 5 "Extracting links..."]
  let target := disk.resolve path
  match Survey.ofFile (Shelf.ofDisk disk) target with
  | .ok links =>
    Run.ofEnding announce (progress ++ [Progress.complete]) disk (.ok (listing path target links))
  | .error failure => Run.ofEnding announce progress disk (unreadable path target failure)

end Command

end Crosslink

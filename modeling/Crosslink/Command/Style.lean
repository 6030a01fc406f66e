import Crosslink.Command.Basic
import Crosslink.Link.Survey

namespace Crosslink
namespace Command

/-!
Telling whether the links of a tree are mostly relative or rooted.
-/

/-- The fields of a report on a style. -/
def styleOutput (errors : List Text) (target style : Text) : List (Text × Value) :=
  Report.opening errors [("path", .text target), ("style", .text style)]

/-- The report on a tree that could not be read. -/
def unsurveyed (path target : Text) (failure : Failure) : Except Failure Report :=
  if failure.isAbsence then
    .ok (Report.failed (("Directory not found: " : Text) ++ path)
      (styleOutput [failure.message] target []))
  else .error failure

def dominant (target : Text) (style : Survey.Style) : Report where
  result := ("Dominant link style: " : Text) ++ style.name
  output := styleOutput [] target style.name
  success := true

/-- Tell the style of the links below a directory. -/
def tellStyle (disk : Disk) (path : Text) : Run :=
  let announce := ("Detecting link style in " : Text) ++ path ++ ("..." : Text)
  let progress :=
    [Progress.tenths 2 "Resolving path...", Progress.tenths 5 "Counting links..."]
  let target := disk.resolve path
  match Survey.styleOf (Shelf.ofDisk disk) target with
  | .ok style =>
    Run.ofEnding announce (progress ++ [Progress.complete]) disk (.ok (dominant target style))
  | .error failure => Run.ofEnding announce progress disk (unsurveyed path target failure)

end Command

end Crosslink

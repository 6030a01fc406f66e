import Crosslink.Command.Basic
import Crosslink.Data.Json.Printer
import Crosslink.Data.Yaml.Printer
import Crosslink.Report.Schema

namespace Crosslink

/-!
What a user sees of a command.  The announcement, the progress and the result go to the
error stream, each on a line that begins with the time; the report goes to the output
stream.  A report without a result or without data, or one that does not have the shape it
should have, is not shown.
-/

/-- The two streams. -/
structure Screen where
  /-- The output stream. -/
  out : Text
  /-- The error stream. -/
  err : Text
  deriving Repr, DecidableEq

namespace Screen

/-- Nothing is shown. -/
def blank : Screen where
  out := []
  err := []

/-- Show a text on the output stream. -/
def print (screen : Screen) (text : Text) : Screen :=
  { screen with out := screen.out ++ text }

/-- Show a line on the error stream. -/
def tell (screen : Screen) (line : Text) : Screen :=
  { screen with err := screen.err ++ line ++ ['\n'] }

end Screen

/-- How data is shown. -/
inductive Format where
  | yaml
  | json
  deriving Repr, DecidableEq

namespace Format

def all : List Format := [yaml, json]

def name : Format → Text
  | yaml => "yaml"
  | json => "json"

def ofName? (text : Text) : Option Format :=
  all.find? fun format => format.name = text

/-- A record as it is shown. -/
def render (format : Format) (fields : List (Text × Value)) : Text :=
  match format with
  | yaml => Yaml.print fields
  | json => Json.print Json.Layout.readable (.record fields) ++ ['\n']

end Format

namespace Display

/-- Control characters that a line does not show. -/
def hidden : Text :=
  ['\x07', '\x08', '\x0b', '\x0c', '\x0d']

/-- Tabs reach to the next multiple of so many columns. -/
def tabWidth : Nat := 8

def expandTabs (column : Nat) : Text → Text
  | [] => []
  | c :: rest =>
    if c = '\n' then c :: expandTabs 0 rest
    else if c = '\t' then
      let width := tabWidth - column % tabWidth
      List.replicate width ' ' ++ expandTabs (column + width) rest
    else c :: expandTabs (column + 1) rest

def shown (line : Text) : Text :=
  expandTabs 0 (line.filter fun c => !hidden.contains c)

def statusLine (clock sign message : Text) : Text :=
  shown (clock ++ ' ' :: sign ++ ' ' :: message)

/-- A line that tells how far a command has come. -/
def progressLine (clock : Text) (progress : Progress) : Text :=
  shown (clock ++ (" Progress: " : Text) ++ progress.message ++ (" (" : Text)
    ++ progress.fraction.percentText ++ [')'])

/-- Why a report is not shown. -/
inductive Fault where
  | noResult
  | noOutput
  | misfit (misfit : Report.Misfit)
  deriving Repr, DecidableEq

def Fault.message : Fault → Text
  | .noResult => "progress_callback must set result.result to a non-empty string"
  | .noOutput => "progress_callback must set result.output to a non-empty dict"
  | .misfit found => ("Output structure validation failed: " : Text) ++ found.message

/-- Show what a command announced and how far it came. -/
def showProgress (clock announce : Text) (progress : List Progress) : Screen :=
  progress.foldl (fun screen step => screen.tell (progressLine clock step))
    (Screen.blank.tell (statusLine clock ['i'] announce))

def showReport (clock : Text) (format : Format) (screen : Screen) (report : Report)
    (output : List (Text × Value)) : Screen :=
  (screen.tell (statusLine clock (if report.success then ['✓'] else ['✗']) report.result)).print
    (format.render output)

/-- Show a report, after it has been brought into the shape it should have. -/
def conclude (clock : Text) (format : Format)
    (validate : List (Text × Value) → Except Report.Misfit (List (Text × Value)))
    (screen : Screen) (report : Report) : Except Fault Screen :=
  if report.result.isEmpty then .error .noResult
  else if report.output.isEmpty then .error .noOutput
  else
    match validate report.output with
    | .ok output => .ok (showReport clock format screen report output)
    | .error misfit => .error (.misfit misfit)

end Display

end Crosslink

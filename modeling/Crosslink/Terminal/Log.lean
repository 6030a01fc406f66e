import Crosslink.Config.Load
import Crosslink.Revision.Generation
import Crosslink.Text.Caseless

namespace Crosslink

/-!
The log of the program.  It is closed at first, and what is noted then is lost.  Once it
is open, the notes that weigh enough go to the end of one file, a line for each; opening it
again changes only what weighs enough.
-/

namespace Weight

def all : List Weight := [debug, info, warning, error, critical]

def name : Weight → Text
  | debug => "DEBUG"
  | info => "INFO"
  | warning => "WARNING"
  | error => "ERROR"
  | critical => "CRITICAL"

def rank : Weight → Nat
  | debug => 0
  | info => 1
  | warning => 2
  | error => 3
  | critical => 4

/-- What weighs enough where nothing is said. -/
def usual : Weight := warning

def otherNames : List (Text × Weight) :=
  [("WARN", warning), ("FATAL", critical), ("NOTSET", usual)]

def names : List (Text × Weight) :=
  all.map (fun weight => (weight.name, weight)) ++ otherNames

/-- The weight of that name, written in capital letters. -/
def ofName? (text : Text) : Option Weight :=
  names.lookup text

/-- The weight that a configuration asks for. -/
def ofLevel : Level → Weight
  | .debug => debug
  | .info => info
  | .warn => warning
  | .error => error

end Weight

structure Log where
  /-- A note has to weigh so much to be written. -/
  threshold : Weight
  /-- The file that notes are written to, if the log is open. -/
  file? : Option Text
  deriving Repr, DecidableEq

namespace Log

def closed : Log where
  threshold := .usual
  file? := none

def fileName : Text := "mdlinks.log"

/-- The part of the program that notes come from. -/
def source : Text := "mdlinks.link"

/-- Why the log is not opened. -/
inductive Fault where
  | unknownWeight (name : Text)
  /-- There is no place for the file. -/
  | stopped (failure : Failure)
  deriving Repr, DecidableEq

def Fault.message : Fault → Text
  | .unknownWeight name => ("Unknown level: " : Text) ++ Text.quoted name
  | .stopped failure => failure.message

def makeFile (disk : Disk) (directory file : Text) : Except Failure Unit × Disk :=
  match disk.makeDirectory directory with
  | (.ok (), disk) => disk.appendBytes (Path.normalize file) []
  | failed => failed

/-- Open the log in a directory, or change the threshold of a log that is open.  The
result names the file that the directory is to have, whether or not notes go there. -/
def openIn (log : Log) (disk : Disk) (directory : Text) (threshold : Weight) :
    Except Failure Text × Log × Disk :=
  let file := Path.under directory fileName
  if log.file?.isSome then (.ok file, { log with threshold }, disk)
  else
    match makeFile disk directory file with
    | (.ok (), disk) => (.ok file, { threshold, file? := some (Path.normalize file) }, disk)
    | (.error failure, disk) => (.error failure, { log with threshold }, disk)

/-- The directory that the log is opened in: a given one, or the program's own. -/
def directory (environment : Environment) (given? : Option Text) : Except Failure Text :=
  match given? with
  | none => environment.directory
  | some path =>
    match Path.located environment.surroundings path with
    | .ok path => .ok path
    | .error _ => .error .unknownHome

def openNamed (environment : Environment) (log : Log) (disk : Disk) (given? : Option Text)
    (name : Text) : Except Fault Text × Log × Disk :=
  match directory environment given? with
  | .error failure => (.error (.stopped failure), log, disk)
  | .ok directory =>
    match Weight.ofName? (Text.upper name) with
    | none => (.error (.unknownWeight (Text.upper name)), log, disk)
    | some threshold =>
      let (file, log, disk) := log.openIn disk directory threshold
      (file.mapError .stopped, log, disk)

/-- A note is written. -/
def admits (log : Log) (note : Note) : Bool :=
  log.threshold.rank ≤ note.weight.rank

/-- The line that a note is written as, behind what every line begins with. -/
def line (stamp : Text) (note : Note) : Text :=
  stamp ++ source ++ (" - " : Text) ++ note.weight.name ++ (" - " : Text) ++ note.message ++ ['\n']

def text (stamp : Text) (log : Log) (notes : List Note) : Text :=
  (notes.filter log.admits).flatMap (line stamp)

def write (stamp : Text) (log : Log) (disk : Disk) (notes : List Note) : Disk :=
  match log.file? with
  | none => disk
  | some file => (disk.appendBytes file (Utf8.encode (log.text stamp notes))).2

end Log

end Crosslink

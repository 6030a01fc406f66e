import Crosslink.Config.Settings
import Crosslink.Data.Json.Reader
import Crosslink.Files.Disk

namespace Crosslink

/-!
Loading the configuration from its file.  The file lies in the program's own directory,
which is that of a given name, or else a hidden one in the home directory.  A file that is
missing, or does not hold what it should, is a fault that commands report; a directory in
its place, a name that is too long or a home directory that is not known ends a command.
-/

/-- The place that the program runs in. -/
structure Environment where
  surroundings : Surroundings
  /-- The program's own directory, if one is named. -/
  named? : Option Text
  deriving Repr, DecidableEq

inductive LoadFault where
  /-- There is no file. -/
  | absent (path : Text)
  /-- The file is no text. -/
  | undecodable (fault : DecodingFault)
  | unreadable (path text : Text) (fault : Json.Fault)
  /-- The data is no record. -/
  | notRecord (path : Text)
  /-- The record is no configuration; its first mismatch. -/
  | mismatched (mismatch : Schema.Mismatch)
  /-- The file could not be looked at. -/
  | stopped (failure : Failure)
  deriving Repr, DecidableEq

namespace LoadFault

def message : LoadFault → Text
  | absent path => ("Configuration file not found at " : Text) ++ path
  | undecodable fault => fault.message
  | unreadable path text fault =>
    match fault with
    | .misplaced .. =>
      ("Invalid JSON in config file " : Text) ++ path ++ (": " : Text) ++ fault.message text
    | .unpaired => ("Configuration validation error: " : Text) ++ fault.message text
    | .tooManyDigits _ => fault.message text
  | notRecord path =>
    ("Configuration validation error: top level of " : Text) ++ path
      ++ (" must be an object" : Text)
  | mismatched mismatch => ("Configuration validation error: " : Text) ++ mismatch.message
  | stopped failure => failure.message

/-- What ends a command, if the fault is none that it reports. -/
def stop? : LoadFault → Option Failure
  | stopped failure => some failure
  | _ => none

end LoadFault

namespace Environment

/-- An absolute path without repeated slashes and without `.` and `..`. -/
def settled (path : Text) : Text :=
  Path.render 1 (Path.settle true (path.splitOn '/'))

/-- The program's own directory. -/
def directory (environment : Environment) : Except Failure Text :=
  match environment.named? with
  | some (c :: name) =>
    match Path.expandHome environment.surroundings (Path.tidy (c :: name)) with
    | .ok path => .ok (settled (Path.under environment.surroundings.cwd path))
    | .error _ => .error .unknownHome
  | _ => .ok (Path.under (Path.tidy environment.surroundings.home) ".mdlinks")

def configPath (environment : Environment) : Except Failure Text :=
  environment.directory.map fun directory => Path.under directory "config.json"

end Environment

namespace Settings

def oneLineBreak : Text → Text
  | '\r' :: '\n' :: rest => '\n' :: oneLineBreak rest
  | '\r' :: rest => '\n' :: oneLineBreak rest
  | c :: rest => c :: oneLineBreak rest
  | [] => []

/-- Read settings from structured data that a file at a path holds. -/
def ofValue (surroundings : Surroundings) (path : Text) : Value → Except LoadFault Settings
  | .record fields =>
    match ofFields surroundings fields with
    | .ok settings => .ok settings
    | .error .unknownHome => .error (.stopped .unknownHome)
    | .error (.mismatched (mismatch :: _)) => .error (.mismatched mismatch)
    | .error (.mismatched []) => .error (.notRecord path)
  | _ => .error (.notRecord path)

def ofText (surroundings : Surroundings) (path text : Text) : Except LoadFault Settings :=
  match Json.read text with
  | .ok value => ofValue surroundings path value
  | .error fault => .error (.unreadable path text fault)

def ofBytes (surroundings : Surroundings) (path : Text) (content : Bytes) :
    Except LoadFault Settings :=
  match Encoding.utf8.decode content with
  | .ok text => ofText surroundings path (oneLineBreak text)
  | .error (.undecodable fault) => .error (.undecodable fault)
  | .error failure => .error (.stopped failure)

def loadAt (disk : Disk) (path : Text) : Except LoadFault Settings :=
  match disk.nodeAt? path with
  | .ok none => .error (.absent path)
  | .ok (some .directory) => .error (.stopped (.isDirectory path))
  | .ok (some (.file content)) => ofBytes disk.surroundings path content
  | .error failure => .error (.stopped failure)

def load (environment : Environment) (disk : Disk) : Except LoadFault Settings :=
  match environment.configPath with
  | .ok path => loadAt disk path
  | .error failure => .error (.stopped failure)

/-- Load the rules for links, with another root if one is given. -/
def loadRules (environment : Environment) (disk : Disk) (root? : Option Text) :
    Except LoadFault Rules :=
  match load environment disk with
  | .error fault => .error fault
  | .ok settings =>
    match settings.rules.withRoot environment.surroundings root? with
    | .ok rules => .ok rules
    | .error .unknownHome => .error (.stopped .unknownHome)
    | .error (.mismatched (mismatch :: _)) => .error (.mismatched mismatch)
    | .error (.mismatched []) => .ok settings.rules

end Settings

end Crosslink

import Crosslink.Config.Level
import Crosslink.Config.Rules
import Crosslink.Schema.Shape

namespace Crosslink

/-!
The settings that a configuration asks for, read from structured data.  All that is
wrong with the data is found in one pass, field by field in the order of declaration and
unexpected fields last.  The root of the links is made absolute; one that begins with the
home directory of an unknown user ends the reading at once.
-/

open Schema

/-- Why structured data is no configuration. -/
inductive ConfigFault where
  /-- What is wrong with it. -/
  | mismatched (mismatches : List Mismatch)
  /-- Its root lies in a home directory that is not known. -/
  | unknownHome
  deriving Repr, DecidableEq

namespace Rules

def foldersName : Text := "docs_folders"

def rootName : Text := "dataset_root"

def exclusionsName : Text := "exclusion_list"

def fieldNames : List Text := [foldersName, rootName, exclusionsName]

/-- Names without the empty one, each once. -/
def distinctFolders (folders : List Text) : List Text :=
  (folders.filter fun folder => !folder.isEmpty).eraseDups

def textOf (value : Value) : Checked Text :=
  match value with
  | .text text => .ok text
  | _ => .error [Mismatch.here .notText]

def textsOf (value : Value) : Checked (List Text) :=
  match value with
  | .list items =>
    Checked.all (items.mapIdx fun index item => Checked.below (.item index) (textOf item))
  | _ => .error [Mismatch.here .notList]

def textsField (name : Text) (fields : List (Text × Value)) : Checked (List Text) :=
  match Value.lookup? name fields with
  | some value => Checked.below (.field name) (textsOf value)
  | none => .ok []

def emptyRoot : Difference :=
  .refused "dataset_root must not be empty"

/-- Why a root is refused that begins in the home directory of a user whose name no user can
have. -/
def impossibleUser : Difference :=
  .refused "embedded null byte"

/-- A root as it is written, if it can be looked for. -/
def checkedRoot (root : Text) : Checked Text :=
  if root.isEmpty then .error [Mismatch.here emptyRoot]
  else if ((Path.user? (Path.tidy root)).getD []).contains '\x00' then
    .error [Mismatch.here impossibleUser]
  else .ok root

def writtenRoot (fields : List (Text × Value)) : Checked Text :=
  Checked.below (.field rootName)
    (match Value.lookup? rootName fields with
    | none => .error [Mismatch.here .missing]
    | some value =>
      match textOf value with
      | .ok root => checkedRoot root
      | .error mismatches => .error mismatches)

def ofFields (surroundings : Surroundings) (fields : List (Text × Value)) :
    Except ConfigFault Rules :=
  let folders := textsField foldersName fields
  let exclusions := textsField exclusionsName fields
  match writtenRoot fields with
  | .error mismatches =>
    .error (.mismatched (folders.mismatches ++ mismatches ++ exclusions.mismatches
      ++ unexpectedFields fieldNames fields))
  | .ok written =>
    match Path.located surroundings written with
    | .error _ => .error .unknownHome
    | .ok root =>
      match folders, exclusions, unexpectedFields fieldNames fields with
      | .ok folders, .ok exclusions, [] =>
        .ok { folders := distinctFolders folders, root, exclusions }
      | folders, exclusions, unexpected =>
        .error (.mismatched (folders.mismatches ++ exclusions.mismatches ++ unexpected))

def fields (rules : Rules) : List (Text × Value) :=
  [(foldersName, Value.texts rules.folders), (rootName, .text rules.root),
    (exclusionsName, Value.texts rules.exclusions)]

/-- The rules with another root, if one is given that is not empty. -/
def withRoot (surroundings : Surroundings) (rules : Rules) (root? : Option Text) :
    Except ConfigFault Rules :=
  match root? with
  | some (c :: root) =>
    ofFields surroundings (Value.setField rootName (.text (c :: root)) rules.fields)
  | _ => .ok rules

end Rules

namespace Level

def fieldName : Text := "level"

def checkedLevel (fields : List (Text × Value)) : Checked Level :=
  match Value.lookup? fieldName fields with
  | none => .ok info
  | some value =>
    let named? :=
      match value with
      | .text text => ofName? text
      | _ => none
    match named? with
    | some level => .ok level
    | none =>
      .error [{ location := [.field fieldName], difference := .notOneOf (all.map name) }]

def ofFields (fields : List (Text × Value)) : Checked Level :=
  match checkedLevel fields, unexpectedFields [fieldName] fields with
  | .ok level, [] => .ok level
  | level, unexpected => .error (level.mismatches ++ unexpected)

def fields (level : Level) : List (Text × Value) :=
  [(fieldName, .text level.name)]

end Level

structure Settings where
  /-- The rules for links. -/
  rules : Rules
  /-- The level of the log. -/
  level : Level
  deriving Repr, DecidableEq

namespace Settings

/-- The name of the section of the rules. -/
def linksName : Text := "links"

def logName : Text := "log"

def sectionNames : List Text := [linksName, logName]

def rulesSection (surroundings : Surroundings) (fields : List (Text × Value)) :
    Except ConfigFault (Checked Rules) :=
  match Value.lookup? linksName fields with
  | none => .ok (.error [{ location := [.field linksName], difference := .missing }])
  | some (.record links) =>
    match Rules.ofFields surroundings links with
    | .ok rules => .ok (.ok rules)
    | .error (.mismatched mismatches) =>
      .ok (.error (mismatches.map (Mismatch.below (.field linksName))))
    | .error .unknownHome => .error .unknownHome
  | some _ =>
    .ok (.error
      [{ location := [.field linksName], difference := .notRecordOf "LinksConfig" }])

def logSection (fields : List (Text × Value)) : Checked Level :=
  match Value.lookup? logName fields with
  | none => .ok .info
  | some (.record log) => Checked.below (.field logName) (Level.ofFields log)
  | some _ =>
    .error [{ location := [.field logName], difference := .notRecordOf "LogConfig" }]

def ofFields (surroundings : Surroundings) (fields : List (Text × Value)) :
    Except ConfigFault Settings :=
  match rulesSection surroundings fields with
  | .error fault => .error fault
  | .ok rules =>
    match rules, logSection fields, unexpectedFields sectionNames fields with
    | .ok rules, .ok level, [] => .ok { rules, level }
    | rules, level, unexpected =>
      .error (.mismatched (rules.mismatches ++ level.mismatches ++ unexpected))

def fields (settings : Settings) : List (Text × Value) :=
  [(linksName, .record settings.rules.fields), (logName, .record settings.level.fields)]

end Settings

end Crosslink

import Crosslink.Schema.Shape

namespace Crosslink
namespace Report

/-!
What the reports of the commands look like.  Every report begins with a list of errors
and a list of warnings.  A command is found by a domain and a name; a report of a command
that has no schema is taken as it is.
-/

open Schema

def baseFields : List Field :=
  [.listing "errors" .text, .listing "warnings" .text]

/-- The fields of the reports of a run over many files. -/
def batchFields : List Field :=
  baseFields ++
    [.required "path" .text, .required "total_files" .integer,
      .required "processed_files" .integer, .required "total_replacements_applied" .integer,
      .required "by_kind" (.recordOf .integer), .required "modified_files" (.listOf .text)]

def showFields : List Field :=
  baseFields ++
    [.required "path" .text, .required "links" (.listOf (.recordOf .anything)),
      .required "count" .integer]

def checkFields : List Field :=
  batchFields ++
    [.required "fix" .boolean, .required "broken_links" (.listOf (.recordOf .anything))]

/-- The fields of a report on links in canonical form. -/
def normalizeFields : List Field :=
  batchFields ++ [.required "dry_run" .boolean]

def substituteFields : List Field :=
  batchFields ++
    [.required "old_base" .text, .required "new_base" .text, .required "dry_run" .boolean]

def styleFields : List Field :=
  baseFields ++ [.required "path" .text, .required "style" .text]

def configFields : List Field :=
  baseFields ++
    [.required "section" .text, .required "content" (.recordOf .anything),
      .required "config_path" .text]

/-- The schemas by domain and command. -/
def schemas : List ((Text × Text) × List Field) :=
  [(("config", "show"), configFields), (("link", "show"), showFields),
    (("link", "check"), checkFields), (("link", "normalize"), normalizeFields),
    (("link", "substitute"), substituteFields), (("link", "style"), styleFields)]

def schema? (domain command : Text) : Option (List Field) :=
  schemas.lookup (domain, command)

/-- A command that has a schema already cannot be given another. -/
def register (domain command : Text) : Except Text Unit :=
  match schema? domain command with
  | some _ => .error (("Schema already registered for " : Text) ++ domain ++ '.' :: command)
  | none => .ok ()

/-- What the names of the functions of commands begin with. -/
def commandStart : Text := "cmd_"

/-- The domain and the name of the command that a function of a module stands for. -/
def commandOf? (module function : Text) : Option (Text × Text) :=
  match module.splitOn '.' with
  | program :: part :: domain :: _ =>
    if program = "mdlinks".toList && part = "api".toList && function.startsWith commandStart then
      some (domain, function.drop commandStart.length)
    else none
  | _ => none

/-- A report that does not have the fields it should have. -/
structure Misfit where
  /-- The domain of the command. -/
  domain : Text
  command : Text
  /-- What is wrong. -/
  mismatches : List Mismatch
  deriving Repr, DecidableEq

def Misfit.message (misfit : Misfit) : Text :=
  ("Output validation failed for " : Text) ++ misfit.domain ++ '.' :: misfit.command

/-- Bring the report of a command into the shape of its schema. -/
def validate (module function : Text) (fields : List (Text × Value)) :
    Except Misfit (List (Text × Value)) :=
  match commandOf? module function with
  | none => .ok fields
  | some (domain, command) =>
    match schema? domain command with
    | none => .ok fields
    | some schema =>
      match fill schema fields with
      | .ok fields => .ok fields
      | .error mismatches => .error { domain, command, mismatches }

end Report

end Crosslink

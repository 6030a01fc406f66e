import Crosslink.Command.Basic

namespace Crosslink
namespace Command

/-!
Showing the configuration: the names of its sections, or one section.
-/

/-- The fields of a report on the configuration. -/
def configOutput (errors : List Text) (name : Text) (content : List (Text × Value))
    (path : Text) : List (Text × Value) :=
  Report.opening errors
    [("section", .text name), ("content", .record content), ("config_path", .text path)]

def configFailure (result error name path : Text) : Report :=
  Report.failed result (configOutput [error] name [] path)

def unknownSection (name path : Text) : Report :=
  configFailure (("Section '" : Text) ++ name ++ ("' not found" : Text))
    (("Unknown section: " : Text) ++ name) name path

def sectionList (settings : Settings) (path : Text) : Report where
  result := ("Found " : Text) ++ Text.ofNat settings.fields.length ++ (" section(s)" : Text)
  output :=
    configOutput [] [] [("sections", Value.texts (settings.fields.map (·.1)))] path
  success := true

def sectionReport (name path : Text) (content : List (Text × Value)) : Report where
  result := ("Retrieved configuration for '" : Text) ++ name ++ ['\x27']
  output := configOutput [] name content path
  success := true

def configReport (name path : Text) (settings : Settings) : Report :=
  if name.isEmpty then sectionList settings path
  else
    match Value.lookup? name settings.fields with
    | some (.record content) => sectionReport name path content
    | _ => unknownSection name path

def configAnnounce (name : Text) : Text :=
  if name.isEmpty then "Listing configuration sections..."
  else ("Showing configuration for section '" : Text) ++ name ++ ("'..." : Text)

def configLoading : Progress :=
  Progress.tenths 3 "Loading configuration..."

def showConfig (environment : Environment) (disk : Disk) (name : Text) : Run :=
  let run := Run.ofEnding (configAnnounce name)
  match environment.configPath with
  | .error failure => run [configLoading] disk (.error failure)
  | .ok path =>
    match Settings.load environment disk with
    | .ok settings =>
      run [configLoading, Progress.tenths 6 "Processing sections...", Progress.complete] disk
        (.ok (configReport name path settings))
    | .error fault =>
      match fault.stop? with
      | some failure => run [configLoading] disk (.error failure)
      | none =>
        run [configLoading, Progress.complete] disk
          (.ok (configFailure (("Cannot load configuration: " : Text) ++ fault.message)
            fault.message name path))

end Command

end Crosslink

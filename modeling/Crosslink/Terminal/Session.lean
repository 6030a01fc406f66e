import Crosslink.Terminal.Invocation
import Crosslink.Terminal.Log

namespace Crosslink

/-!
A run of the program from its words to its exit.  The log is opened at the configured level
before the words are looked at; a configuration that cannot be used is left to the command
that needs it, unless the place of the log cannot be found or made.  A command shows itself
on the screen, and its exit tells whether its report is a success.
-/

/-- When something is shown or written. -/
structure Moment where
  /-- The time of day, as lines of the screen begin with it. -/
  clock : Text
  /-- What lines of the log begin with. -/
  stamp : Text
  deriving Repr, DecidableEq

/-- What a run of the program shows. -/
inductive Page where
  | screen (screen : Screen)
  /-- Help on the output stream, and what is on the error stream. -/
  | help (err : Text)
  /-- A word on the error stream on how the program is used. -/
  | usage
  deriving Repr, DecidableEq

/-- How a run of the program ends. -/
structure Exit where
  /-- Zero for a success. -/
  code : Nat
  /-- What is shown. -/
  page : Page
  deriving Repr, DecidableEq

/-- A machine that the program runs on. -/
structure Session where
  /-- The place that it runs in. -/
  environment : Environment
  /-- The files. -/
  disk : Disk
  log : Log
  deriving Repr, DecidableEq

namespace Exit

/-- What the program calls itself. -/
def versionLine : Text := "mdlinks 0.3.0\n"

def ofScreen (code : Nat) (screen : Screen) : Exit where
  code
  page := .screen screen

def badFormat (name : Text) : Exit :=
  ofScreen 1 (Screen.blank.tell
    (("Error: --display must be 'json' or 'yaml', got '" : Text) ++ name ++ ['\x27']))

/-- The exit behind an error that a command does not report. -/
def unhandled (screen : Screen) (message : Text) : Exit :=
  ofScreen 1 (screen.tell (("Unhandled error: " : Text) ++ message))

/-- The name of the module that a command is found under, and its name there. -/
def scope (command : Command) : Text × Text :=
  let (group, name) := command.fullName
  (("mdlinks.api." : Text) ++ group, Report.commandStart ++ name)

def ofRun (clock : Text) (format : Format) (command : Command) (run : Run) : Exit :=
  let screen := Display.showProgress clock run.announce run.progress
  match run.ending with
  | .error failure => unhandled screen failure.message
  | .ok report =>
    let (module, name) := scope command
    match Display.conclude clock format (Report.validate module name) screen report with
    | .ok screen => ofScreen (if report.success then 0 else 1) screen
    | .error fault => unhandled screen fault.message

end Exit

namespace Session

/-- A session in which nothing was done yet. -/
def start (environment : Environment) (disk : Disk) : Session where
  environment
  disk
  log := .closed

/-- What the log is opened with: the configured level, or the usual one for a
configuration that cannot be used. -/
def configuredWeight (session : Session) : Except Failure Weight :=
  match Settings.load session.environment session.disk with
  | .ok settings => .ok (Weight.ofLevel settings.level)
  | .error fault =>
    match fault.stop? with
    | some failure => .error failure
    | none => .ok (Weight.ofLevel .info)

/-- Open the log in the program's own directory. -/
def openLog (session : Session) : Except Failure Unit × Session :=
  match session.configuredWeight, session.environment.directory with
  | .ok weight, .ok directory =>
    let (result, log, disk) := session.log.openIn session.disk directory weight
    (result.map fun _ => (), { session with log, disk })
  | .error failure, _ => (.error failure, session)
  | _, .error failure => (.error failure, session)

/-- Open the log in a directory and with a threshold that are given. -/
def configureLog (session : Session) (given? : Option Text) (name : Text) :
    Except Log.Fault Text × Session :=
  let (result, log, disk) := session.log.openNamed session.environment session.disk given? name
  (result, { session with log, disk })

def perform (stamp : Text) (session : Session) (command : Command) : Run × Session :=
  let run := command.run session.environment session.disk
  (run, { session with disk := session.log.write stamp run.disk run.notes })

/-- Do what a command line asks for. -/
def execute (moment : Moment) (session : Session) : Invocation → Exit × Session
  | .version => (.ofScreen 0 (Screen.blank.print Exit.versionLine), session)
  | .help breaksErrors =>
    ({ code := 0, page := .help (if breaksErrors then ['\n'] else []) }, session)
  | .misuse => ({ code := 2, page := .usage }, session)
  | .badFormat name => (.badFormat name, session)
  | .command format command =>
    let (run, session) := session.perform moment.stamp command
    (.ofRun moment.clock format command run, session)

/-- Run the program on the words of a command line, with a log that is closed yet.  A log
that cannot be opened ends the run. -/
def run (moment : Moment) (session : Session) (words : List Text) :
    Except Failure Exit × Session :=
  let session := { session with log := .closed }
  match Invocation.ofWords words with
  | .version =>
    let (exit, session) := session.execute moment .version
    (.ok exit, session)
  | invocation =>
    match session.openLog with
    | (.ok (), session) =>
      let (exit, session) := session.execute moment invocation
      (.ok exit, session)
    | (.error failure, session) => (.error failure, session)

end Session

end Crosslink

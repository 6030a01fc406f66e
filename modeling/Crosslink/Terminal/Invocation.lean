import Crosslink.Command.Call
import Crosslink.Terminal.Arguments
import Crosslink.Terminal.Display

namespace Crosslink

/-!
What a command line asks for.  The words name the format first, then a group, then a
command of the group with its own arguments.  Each part is looked at before the next one,
so what is wrong first is what counts.
-/

/-- What a command line asks for. -/
inductive Invocation where
  | version
  /-- Help, perhaps with a line break on the error stream. -/
  | help (breaksErrors : Bool)
  /-- The command line is wrong. -/
  | misuse
  /-- There is no such format. -/
  | badFormat (name : Text)
  /-- A command is to be run and shown. -/
  | command (format : Format) (command : Command)
  deriving Repr, DecidableEq

namespace Invocation

open Arguments

def helpOption : OptionSpec where
  names := ["--help", "-h"]
  takesValue := false

/-- The option that names the format. -/
def displayOption : OptionSpec where
  names := ["--display", "-d"]
  takesValue := true

/-- The option that has broken links repaired. -/
def fixOption : OptionSpec where
  names := ["--fix"]
  takesValue := false

/-- The option that keeps files as they are. -/
def dryRunOption : OptionSpec where
  names := ["--dry-run", "-n"]
  takesValue := false

def rootOption : OptionSpec where
  names := ["--dataset-root"]
  takesValue := true

structure CommandSpec where
  name : Text
  /-- Its options besides that for help. -/
  options : List OptionSpec
  /-- It has at least so many words. -/
  least : Nat
  /-- It has at most so many words. -/
  most : Nat
  /-- The command that the words and options stand for. -/
  build : Parsed → Command

/-- A word of a command, empty if there are not so many. -/
def wordAt (parsed : Parsed) (index : Nat) : Text :=
  (parsed.words[index]?).getD []

def linkCommands : List CommandSpec :=
  [{ name := "show", options := [], least := 1, most := 1
     build parsed := .links (wordAt parsed 0) },
    { name := "check", options := [fixOption, rootOption], least := 1, most := 1
      build parsed :=
        .check (wordAt parsed 0) (parsed.has fixOption.key) (parsed.value? rootOption.key) },
    { name := "normalize", options := [dryRunOption, rootOption], least := 1, most := 1
      build parsed :=
        .normalize (wordAt parsed 0) (parsed.has dryRunOption.key)
          (parsed.value? rootOption.key) },
    { name := "substitute", options := [dryRunOption], least := 3, most := 3
      build parsed :=
        .substitute (wordAt parsed 0) (wordAt parsed 1) (wordAt parsed 2)
          (parsed.has dryRunOption.key) },
    { name := "style", options := [], least := 1, most := 1
      build parsed := .style (wordAt parsed 0) }]

def configCommands : List CommandSpec :=
  [{ name := "show", options := [], least := 0, most := 1
     build parsed := .config (wordAt parsed 0) }]

/-- The groups of commands.  Without a command, a group shows its help, one of them with a
line break on the error stream. -/
def groups : List (Text × Bool × List CommandSpec) :=
  [("link", true, linkCommands), ("config", false, configCommands)]

def ofCommandWords (format : Format) (spec : CommandSpec) (words : List Text) : Invocation :=
  match parse? { options := helpOption :: spec.options, mixed := true } words with
  | none => .misuse
  | some parsed =>
    if parsed.has helpOption.key then .help false
    else if parsed.words.length < spec.least || spec.most < parsed.words.length then .misuse
    else .command format (spec.build parsed)

def ofGroupWords (format : Format) (breaksErrors : Bool) (specs : List CommandSpec)
    (words : List Text) : Invocation :=
  match parse? { options := [helpOption], mixed := false } words with
  | none => .misuse
  | some parsed =>
    if parsed.has helpOption.key then .help false
    else
      match parsed.words with
      | [] => .help breaksErrors
      | name :: rest =>
        match specs.find? fun spec => spec.name = name with
        | none => .misuse
        | some spec => ofCommandWords format spec rest

/-- Read what follows the options of the program, in a format that is named. -/
def ofRest (display : Text) (words : List Text) : Invocation :=
  match words with
  | [] =>
    match Format.ofName? display with
    | none => .badFormat display
    | some _ => .help false
  | name :: rest =>
    match groups.lookup name with
    | none => .misuse
    | some (breaksErrors, specs) =>
      match Format.ofName? display with
      | none => .badFormat display
      | some format => ofGroupWords format breaksErrors specs rest

/-- The words that ask for the version, wherever they stand. -/
def versionWords : List Text :=
  ["--version", "-v"]

/-- What a command line asks for. -/
def ofWords (words : List Text) : Invocation :=
  if words.any versionWords.contains then .version
  else
    match parse? { options := [displayOption, helpOption], mixed := false } words with
    | none => .misuse
    | some parsed =>
      if parsed.has helpOption.key then .help false
      else ofRest ((parsed.value? displayOption.key).getD Format.yaml.name) parsed.words

end Invocation

end Crosslink

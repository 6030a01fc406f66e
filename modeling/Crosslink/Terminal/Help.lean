import Crosslink.Terminal.Invocation

namespace Crosslink
namespace Help

/-!
The help that the program gives: its commands, each with the words that it takes.
-/

/-- The name of an option with a word for its value. -/
def optionText (option : Arguments.OptionSpec) : Text :=
  let value : Text := if option.takesValue then " TEXT" else ""
  (" [" : Text) ++ Text.join ['|'] option.names ++ value ++ [']']

def wordsText (spec : Invocation.CommandSpec) : Text :=
  (List.replicate spec.least (" WORD" : Text)).flatten
    ++ (List.replicate (spec.most - spec.least) (" [WORD]" : Text)).flatten

def commandLine (group : Text) (spec : Invocation.CommandSpec) : Text :=
  ("  " : Text) ++ group ++ ' ' :: spec.name ++ spec.options.flatMap optionText ++ wordsText spec
    ++ ['\n']

/-- The options of the program, and all its commands. -/
def page : Text :=
  ("Usage: mdlinks" : Text) ++ [Invocation.displayOption, Invocation.helpOption].flatMap optionText
    ++ (" GROUP COMMAND\n\n" : Text)
    ++ Invocation.groups.flatMap fun group => group.2.2.flatMap (commandLine group.1)

/-- What the program says to a command line that it does not understand. -/
def usage : Text :=
  ("The command line is not understood.\n\n" : Text) ++ page

end Help
end Crosslink

import Crosslink.Text.Basic

namespace Crosslink
namespace Arguments

/-!
Reading the words of a command line.  A word that begins with a hyphen names options: one
long option, perhaps with its value behind an equals sign, or short options one after the
other, the last of them perhaps with its value.  Two hyphens alone end the options.
-/

/-- An option that a command knows. -/
structure OptionSpec where
  /-- The names, with their hyphens. -/
  names : List Text
  /-- The option has a value. -/
  takesValue : Bool
  deriving Repr, DecidableEq

/-- An option that was given, by its first name, with its value. -/
abbrev Given := Text × Text

/-- What was read of a command line. -/
structure Parsed where
  /-- The options in order. -/
  options : List Given
  /-- The words that are no options. -/
  words : List Text
  deriving Repr, DecidableEq

/-- A way to read a command line. -/
structure Grammar where
  /-- The options that are known. -/
  options : List OptionSpec
  /-- Options may stand behind words. -/
  mixed : Bool
  deriving Repr, DecidableEq

/-- A name of one character behind a single hyphen. -/
def isShortName : Text → Bool
  | ['-', c] => c != '-'
  | _ => false

def find? (options : List OptionSpec) (name : Text) : Option OptionSpec :=
  options.find? fun option => option.names.contains name

/-- The name that an option goes by. -/
def OptionSpec.key (option : OptionSpec) : Text :=
  option.names.headD []

/-- Cut a word at its first equals sign. -/
def cut (word : Text) : Text × Option Text :=
  match Text.fromFirst '=' word with
  | _ :: value => (word.before '=', some value)
  | [] => (word, none)

/-- The long option that a word names: the option with its value, if it has one, and
whether the value is the next word. -/
def long? (options : List OptionSpec) (word : Text) : Option (OptionSpec × Option Text) :=
  let (name, value?) := cut word
  if isShortName name then none else (find? options name).map fun option => (option, value?)

/-- The options that the letters of a word name, and the one whose value is the next
word, if there is one. -/
def short? (options : List OptionSpec) : Text → Option (List Given × Option Text)
  | [] => some ([], none)
  | c :: rest =>
    match find? options ['-', c] with
    | none => none
    | some option =>
      if option.takesValue then
        if rest.isEmpty then some ([], some option.key) else some ([(option.key, rest)], none)
      else
        (short? options rest).map fun found => ((option.key, []) :: found.1, found.2)

/-- The options that a word names, and the one whose value is the next word, if there is
one; none if the word names no option, or not as it should. -/
def named? (options : List OptionSpec) (word : Text) : Option (List Given × Option Text) :=
  match long? options word with
  | some (option, value?) =>
    match option.takesValue, value? with
    | true, some value => some ([(option.key, value)], none)
    | true, none => some ([], some option.key)
    | false, none => some ([(option.key, [])], none)
    | false, some _ => none
  | none => if word.startsWith ['-', '-'] then none else short? options (word.drop 1)

/-- Put options in front of what was read. -/
def Parsed.given (options : List Given) (parsed : Parsed) : Parsed :=
  { parsed with options := options ++ parsed.options }

/-- Put a word in front of what was read. -/
def Parsed.word (word : Text) (parsed : Parsed) : Parsed :=
  { parsed with words := word :: parsed.words }

/-- Read the words of a command line; the value of an option may be pending.  None if the
words do not fit. -/
def parseFrom? (grammar : Grammar) : Option Text → List Text → Option Parsed
  | some _, [] => none
  | some key, value :: rest =>
    (parseFrom? grammar none rest).map (Parsed.given [(key, value)])
  | none, [] => some { options := [], words := [] }
  | none, word :: rest =>
    if word = ['-', '-'] then some { options := [], words := rest }
    else if word.startsWith ['-'] && 1 < word.length then
      match named? grammar.options word with
      | none => none
      | some (given, pending) =>
        (parseFrom? grammar pending rest).map (Parsed.given given)
    else if grammar.mixed then (parseFrom? grammar none rest).map (Parsed.word word)
    else some { options := [], words := word :: rest }

/-- Read the words of a command line; none if they do not fit. -/
def parse? (grammar : Grammar) (words : List Text) : Option Parsed :=
  parseFrom? grammar none words

namespace Parsed

/-- The value of an option, the last one if it was given several times. -/
def value? (parsed : Parsed) (key : Text) : Option Text :=
  parsed.options.reverse.lookup key

/-- An option was given. -/
def has (parsed : Parsed) (key : Text) : Bool :=
  (parsed.value? key).isSome

end Parsed

end Arguments

end Crosslink

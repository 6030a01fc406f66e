import Crosslink.Data.Yaml.Pen
import Crosslink.Data.Yaml.Style
import Crosslink.Text.Quoted

namespace Crosslink
namespace Yaml

/-!
Writing a single text.  Where folding is allowed, a line that has become too long is
folded at its next single space; in double quotes a backslash marks the place.
-/

def runsOf {κ : Type} [DecidableEq κ] (classOf : Char → κ) : Text → List Text
  | [] => []
  | c :: rest =>
    match runsOf classOf rest with
    | (d :: run) :: runs =>
      if classOf c = classOf d then (c :: d :: run) :: runs else [c] :: (d :: run) :: runs
    | runs => [c] :: runs

/-- What a character is to a writer of runs. -/
inductive RunClass where
  | space
  | lineBreak
  | quote
  | other
  deriving Repr, DecidableEq

def runClass (c : Char) : RunClass :=
  if c = ' ' then .space
  else if isBreak c then .lineBreak
  else if c = '\x27' then .quote
  else .other

/-- A line is folded at a single space if it has become too long. -/
def folds (fold : Bool) (run : Text) (pen : Pen) : Bool :=
  fold && run = [' '] && Pen.width < pen.column

def writePlainRuns (fold : Bool) (indent : Nat) : List Text → Pen → Pen
  | [], pen => pen
  | run :: runs, pen =>
    writePlainRuns fold indent runs
      (if folds fold run pen then (pen.indent indent).settle else pen.write run)

def writePlain (fold : Bool) (indent : Nat) (text : Text) (pen : Pen) : Pen :=
  let pen := if pen.gap then pen else pen.write [' ']
  writePlainRuns fold indent (runsOf runClass text) pen.settle

/-- Write line breaks inside single quotes: one more than there are, if the first is a
line feed. -/
def writeBreaks (indent : Nat) (run : Text) (pen : Pen) : Pen :=
  let pen := if run.head? = some '\n' then pen.breakLine '\n' else pen
  (run.foldl (fun pen c => pen.breakLine c) pen).indent indent

/-- Write the runs of a text inside single quotes; the first and the last run are not
folded. -/
def writeSingleRuns (fold first : Bool) (indent : Nat) : List Text → Pen → Pen
  | [], pen => pen
  | run :: runs, pen =>
    let pen :=
      match run with
      | '\x27' :: _ => pen.write (run ++ run)
      | ' ' :: _ =>
        if folds (fold && !first && !runs.isEmpty) run pen then pen.indent indent
        else pen.write run
      | c :: _ => if isBreak c then writeBreaks indent run pen else pen.write run
      | [] => pen
    writeSingleRuns fold false indent runs pen

def writeSingle (fold : Bool) (indent : Nat) (text : Text) (pen : Pen) : Pen :=
  (writeSingleRuns fold true indent (runsOf runClass text) (pen.sign true ['\x27'])).sign
    false ['\x27']

def escapeLetters : List (Char × Char) :=
  [('\x00', '0'), ('\x07', 'a'), ('\x08', 'b'), ('\t', 't'), ('\n', 'n'), ('\x0b', 'v'),
    ('\x0c', 'f'), ('\r', 'r'), ('\x1b', 'e'), ('\x22', '\x22'), ('\\', '\\'),
    ('\u0085', 'N'), ('\u2028', 'L'), ('\u2029', 'P')]

/-- A character that is written as it is in double quotes. -/
def isBare (c : Char) : Bool :=
  (' ' ≤ c && c ≤ '~' && c != '\x22' && c != '\\')
    || ('\u00A0' ≤ c && c ≤ '\uD7FF' && !isBreak c)
    || ('\uE000' ≤ c && c ≤ '\uFFFD' && c != '\uFEFF')

def escapeOf (c : Char) : Text :=
  match escapeLetters.lookup c with
  | some letter => ['\\', letter]
  | none =>
    let digits (width : Nat) : Text := (Text.hexPadded width c.toNat).map Char.toUpper
    if c.toNat ≤ 0xFF then '\\' :: 'x' :: digits 2
    else if c.toNat ≤ 0xFFFF then '\\' :: 'u' :: digits 4
    else '\\' :: 'U' :: digits 8

/-- Fold a line inside double quotes in front of the rest of a text; a space that the next
line begins with is marked too. -/
def foldDouble (indent : Nat) (rest : Text) (pen : Pen) : Pen :=
  let pen := ((pen.write ['\\']).indent indent).settle
  if rest.head? = some ' ' then pen.write ['\\'] else pen

/-- Write a character inside double quotes, in front of the rest of the text.  A line
that has become too long is folded behind an escape, and in front of a space or of the
character behind an escape. -/
def writeDoubleChar (fold first escaped : Bool) (indent : Nat) (c : Char) (rest : Text)
    (pen : Pen) : Pen :=
  let mayFold := fold && !first && !rest.isEmpty
  if isBare c then
    (if mayFold && (c = ' ' || escaped) && Pen.width < pen.column then
      foldDouble indent (c :: rest) pen
    else pen).write [c]
  else
    let pen := pen.write (escapeOf c)
    if mayFold && Pen.width + 1 < pen.column then foldDouble indent rest pen else pen

def writeDoubleChars (fold first escaped : Bool) (indent : Nat) : Text → Pen → Pen
  | [], pen => pen
  | c :: rest, pen =>
    writeDoubleChars fold false (!isBare c) indent rest
      (writeDoubleChar fold first escaped indent c rest pen)

def writeDouble (fold : Bool) (indent : Nat) (text : Text) (pen : Pen) : Pen :=
  (writeDoubleChars fold true true indent text (pen.sign true ['\x22'])).sign false ['\x22']

/-- Write a text in its style, going on at a column where a line is folded. -/
def writeText (fold : Bool) (indent : Nat) (text : Text) (pen : Pen) : Pen :=
  match styleOf text with
  | .plain => writePlain fold indent text pen
  | .singleQuoted => writeSingle fold indent text pen
  | .doubleQuoted => writeDouble fold indent text pen

end Yaml

end Crosslink

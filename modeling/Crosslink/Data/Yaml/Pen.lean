import Crosslink.Text.Basic

namespace Crosslink
namespace Yaml

/-!
A pen that writes block text and knows where on its line it stands.  It breaks a line
only where it has to: not if nothing but indentation and signs stand on it and there is
room for more.
-/

/-- A text in the making. -/
structure Pen where
  /-- What is written, the last character in front. -/
  written : Text
  /-- The number of characters on the line. -/
  column : Nat
  /-- The last character is a gap. -/
  gap : Bool
  /-- Nothing but indentation and signs stand on the line. -/
  fresh : Bool
  deriving Repr, DecidableEq

namespace Pen

/-- Nothing is written. -/
def start : Pen where
  written := []
  column := 0
  gap := true
  fresh := true

/-- Lines are folded behind so many characters. -/
def width : Nat := 80

def write (text : Text) (pen : Pen) : Pen :=
  { pen with written := text.reverse ++ pen.written, column := pen.column + text.length }

def breakLine (lineBreak : Char) (pen : Pen) : Pen :=
  { written := lineBreak :: pen.written, column := 0, gap := true, fresh := true }

/-- Fill the line up to a column with spaces. -/
def fill (indent : Nat) (pen : Pen) : Pen :=
  if pen.column < indent then
    { pen.write (List.replicate (indent - pen.column) ' ') with gap := true }
  else pen

/-- Go to a column of a line of its own. -/
def indent (indent : Nat) (pen : Pen) : Pen :=
  let taken := !pen.fresh || indent < pen.column || (pen.column = indent && !pen.gap)
  fill indent (if taken then pen.breakLine '\n' else pen)

/-- Write a sign, with a gap in front of it if that is asked for and there is none. -/
def sign (needsGap : Bool) (text : Text) (pen : Pen) : Pen :=
  { pen.write (if pen.gap || !needsGap then text else ' ' :: text) with
    gap := false, fresh := false }

/-- Write a sign that leaves the line fresh if it was. -/
def mark (text : Text) (pen : Pen) : Pen :=
  { pen.sign true text with fresh := pen.fresh }

/-- What is written on the line is no indentation any more. -/
def settle (pen : Pen) : Pen :=
  { pen with gap := false, fresh := false }

end Pen

end Yaml

end Crosslink

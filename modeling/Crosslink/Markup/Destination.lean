import Crosslink.Markup.Entity
import Crosslink.Markup.Source
import Crosslink.Text.Punctuation

namespace Crosslink
namespace Markup

/-!
The parts of a link besides its label: the destination, bare or in angle brackets,
and the title.  Both may hold backslash escapes and character references, which
are taken out of what a scan reports; where the scan stops is a position in the
text as written.
-/

/-- The characters that a reference in a destination or title stands for, and its
length.  The text begins behind `&`. -/
def reference? : Text → Option (Text × Nat)
  | '#' :: digits =>
    match numericCode? 8 8 digits with
    | some (code, length) =>
      if isReferableCode code then some ([Char.ofNat code], length) else none
    | none => none
  | text => named? text

/-- Take out escapes and references, passing over the given number of characters
first. -/
def unescapeAfter : Nat → Text → Text
  | _, [] => []
  | passed + 1, _ :: rest => unescapeAfter passed rest
  | 0, '\\' :: rest =>
    match rest with
    | c :: _ =>
      if isAsciiPunctuation c then c :: unescapeAfter 1 rest
      else '\\' :: unescapeAfter 0 rest
    | [] => ['\\']
  | 0, '&' :: rest =>
    match reference? rest with
    | some (value, length) => value ++ unescapeAfter (length - 1) rest
    | none => '&' :: unescapeAfter 0 rest
  | 0, c :: rest => c :: unescapeAfter 0 rest

/-- Take out backslash escapes and character references. -/
def unescape (text : Text) : Text :=
  unescapeAfter 0 text

def angleEnd? (source : Source) (stop : Nat) : Nat → Nat → Option Nat
  | 0, _ => none
  | fuel + 1, position =>
    if stop ≤ position then none
    else
      match source[position]? with
      | none => none
      | some c =>
        if c = '\n' || c = '<' then none
        else if c = '>' then some position
        else if c = '\\' && position + 1 < stop then angleEnd? source stop fuel (position + 2)
        else angleEnd? source stop fuel (position + 1)

def deepestParentheses : Nat := 32

/-- Position where a bare destination ends, unless its parentheses do not pair up.
The second number counts the parentheses that are open. -/
def bareEnd? (source : Source) (stop : Nat) : Nat → Nat → Nat → Option Nat
  | 0, opened, position => if opened = 0 then some position else none
  | fuel + 1, opened, position =>
    let ended := if opened = 0 then some position else none
    if stop ≤ position then ended
    else
      match source[position]? with
      | none => ended
      | some c =>
        if c = ' ' || c.toNat < 0x20 || c.toNat = 0x7F then ended
        else if c = '\\' && position + 1 < stop then
          if source.has (position + 1) ' ' then ended
          else bareEnd? source stop fuel opened (position + 2)
        else if c = '(' then
          if opened < deepestParentheses then bareEnd? source stop fuel (opened + 1) (position + 1)
          else none
        else if c = ')' then
          if opened = 0 then ended else bareEnd? source stop fuel (opened - 1) (position + 1)
        else bareEnd? source stop fuel opened (position + 1)

/-- The destination that begins at a position, and the position behind it. -/
def destination? (source : Source) (position stop : Nat) : Option (Text × Nat) :=
  if source.has position '<' then
    (angleEnd? source stop (stop - position) (position + 1)).map fun last =>
      (unescape (source.between (position + 1) last), last + 1)
  else
    match bareEnd? source stop (stop - position) 0 position with
    | some last =>
      if last = position then none else some (unescape (source.between position last), last)
    | none => none

/-- What a scan for a title found. -/
inductive Title where
  /-- No title stands here. -/
  | absent
  /-- A title, and the position behind its closing mark. -/
  | closed (text : Text) (position : Nat)
  /-- A title that has not ended yet, with the mark that would end it. -/
  | unfinished (closer : Char) (text : Text)
  deriving Repr, DecidableEq

/-- Scan for the closing mark of a title whose text begins at `start`; the text
read so far goes in front. -/
def titleEnd (source : Source) (stop : Nat) (closer : Char) (start : Nat) (soFar : Text) :
    Nat → Nat → Title
  | 0, position => .unfinished closer (soFar ++ unescape (source.between start position))
  | fuel + 1, position =>
    if stop ≤ position then
      .unfinished closer (soFar ++ unescape (source.between start position))
    else if source.has position closer then
      .closed (soFar ++ unescape (source.between start position)) (position + 1)
    else if source.has position '(' && closer = ')' then .absent
    else if source.has position '\\' && position + 1 < stop then
      titleEnd source stop closer start soFar fuel (position + 2)
    else titleEnd source stop closer start soFar fuel (position + 1)

def titleCloser? (opener : Char) : Option Char :=
  if opener = '\x22' then some '\x22'
  else if opener = '\x27' then some '\x27'
  else if opener = '(' then some ')'
  else none

def titleAt (source : Source) (position stop : Nat) : Title :=
  if stop ≤ position then .absent
  else
    match (source[position]?).bind titleCloser? with
    | some closer =>
      titleEnd source stop closer (position + 1) [] (stop - position) (position + 1)
    | none => .absent

end Markup

end Crosslink

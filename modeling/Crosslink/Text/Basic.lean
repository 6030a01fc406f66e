namespace Crosslink

/-!
A text is the list of its characters, and every position in this library counts
characters of such a list.  The operations below are the few that paths, hrefs
and edits are made of: a prefix test, the first occurrence of a pattern, cutting
at a separator, and slices between two positions.
-/

/-- A text is the list of its characters. -/
abbrev Text := List Char

/-- A string literal may stand for the text it spells. -/
instance : Coe String Text := ⟨String.toList⟩

namespace Text

/-- The text begins with the given prefix. -/
def startsWith (text start : Text) : Bool :=
  start.isPrefixOf text

def endsWith (text last : Text) : Bool :=
  last.isSuffixOf text

/-- Position of the first occurrence of a pattern.  The empty pattern occurs at
position zero of every text. -/
def find? (pattern : Text) : Text → Option Nat
  | [] => if pattern.isEmpty then some 0 else none
  | c :: rest =>
    if pattern.isPrefixOf (c :: rest) then some 0
    else (find? pattern rest).map (· + 1)

/-- Position of the first occurrence at or after a given position; a position
past the end has none, not even for the empty pattern. -/
def findFrom? (pattern text : Text) (start : Nat) : Option Nat :=
  if start ≤ text.length then (find? pattern (text.drop start)).map (· + start) else none

/-- The characters between two positions. -/
def slice (text : Text) (start stop : Nat) : Text :=
  (text.take stop).drop start

/-- Cut a text at every occurrence of a separator character.  The result is never
empty, and joining it with the separator gives the text back. -/
def splitOn (separator : Char) : Text → List Text
  | [] => [[]]
  | c :: rest =>
    if c = separator then [] :: splitOn separator rest
    else
      match splitOn separator rest with
      | [] => [[c]]
      | piece :: pieces => (c :: piece) :: pieces

def join (separator : Text) (pieces : List Text) : Text :=
  separator.intercalate pieces

/-- The text before the first occurrence of a character, all of it if there is none. -/
def before (stop : Char) (text : Text) : Text :=
  text.takeWhile (· != stop)

/-- The text from the first occurrence of a character on, empty if there is none. -/
def fromFirst (start : Char) (text : Text) : Text :=
  text.dropWhile (· != start)

def dropEndWhile (test : Char → Bool) (text : Text) : Text :=
  (text.reverse.dropWhile test).reverse

def replaceChar (old new : Char) (text : Text) : Text :=
  text.map fun c => if c = old then new else c

def toString (text : Text) : String :=
  String.ofList text

/-- Decimal digits of a number. -/
def ofNat (n : Nat) : Text :=
  Nat.toDigits 10 n

/-- Decimal digits of an integer, with a minus sign if it is negative. -/
def ofInt : Int → Text
  | .ofNat n => ofNat n
  | .negSucc n => '-' :: ofNat (n + 1)

/-- Character order, code point by code point. -/
def precedes : Text → Text → Bool
  | [], [] => false
  | [], _ :: _ => true
  | _ :: _, [] => false
  | a :: as, b :: bs => a.val < b.val || (a.val == b.val && precedes as bs)

end Text

end Crosslink

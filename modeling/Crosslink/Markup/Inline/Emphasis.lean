import Crosslink.Markup.Inline.Token

namespace Crosslink
namespace Markup

/-!
Pairing emphasis marks.  Every mark of a run may open, close, or do both, by what
stands beside the run.  Going from left to right, each mark that may close looks
back for the nearest one that may open and is of its kind; stretches that were
searched in vain are not searched again.
-/

/-- A piece of a run of inline text, between the ends of one link. -/
inductive Piece where
  /-- Anything that is settled. -/
  | settled (events : List Event)
  /-- One emphasis mark. -/
  | mark (character : Char) (length : Nat) (mayOpen mayClose : Bool)
  deriving Repr, DecidableEq

structure Mark where
  /-- The number of the piece that it is. -/
  place : Nat
  character : Char
  /-- The length of the run that it belongs to. -/
  length : Nat
  /-- It may open emphasis. -/
  mayOpen : Bool
  /-- It may close emphasis. -/
  mayClose : Bool
  /-- The number of the mark that closes what it opens. -/
  closer? : Option Nat
  deriving Repr, DecidableEq, Inhabited

structure Pairing where
  marks : Array Mark
  /-- How many marks before each one can be passed over in a search. -/
  jumps : Array Nat
  /-- For a kind of closing mark, the number of marks at the beginning in which a search
  was in vain. -/
  floors : List ((Char × Bool × Nat) × Nat)
  /-- The first mark of the current run. -/
  header : Nat
  /-- The piece of the mark before, if a run may go on from there. -/
  last? : Option Nat

namespace Pairing

def mark (pairing : Pairing) (number : Nat) : Mark :=
  (pairing.marks[number]?).getD default

/-- How many marks before one can be passed over. -/
def jump (pairing : Pairing) (number : Nat) : Nat :=
  (pairing.jumps[number]?).getD 0

/-- Two runs of which one may both open and close do not pair if their lengths add up
to a multiple of three, unless both are multiples of three. -/
def isOdd (opener closer : Mark) : Bool :=
  (opener.mayClose || closer.mayOpen) && (opener.length + closer.length) % 3 == 0
    && (opener.length % 3 != 0 || closer.length % 3 != 0)

/-- The number of the mark that a closing mark pairs with, among the first `count`
marks and not among the first `floor`. -/
def opener? (pairing : Pairing) (closer : Mark) (floor : Nat) : Nat → Nat → Option Nat
  | 0, _ => none
  | fuel + 1, count =>
    if count ≤ floor then none
    else
      let number := count - 1
      let opener := pairing.mark number
      if opener.character = closer.character && opener.mayOpen && opener.closer?.isNone
          && !isOdd opener closer then some number
      else opener? pairing closer floor fuel (number - pairing.jump number)

def modify (pairing : Pairing) (number : Nat) (change : Mark → Mark) : Pairing :=
  { pairing with marks := pairing.marks.modify number change }

/-- Set how many marks before one can be passed over. -/
def setJump (pairing : Pairing) (number jump : Nat) : Pairing :=
  { pairing with jumps := pairing.jumps.setIfInBounds number jump }

def pair (pairing : Pairing) (opener closer : Nat) : Pairing :=
  let passed :=
    if 0 < opener && !(pairing.mark (opener - 1)).mayOpen then pairing.jump (opener - 1) + 1
    else 0
  let jumped := (pairing.setJump closer (closer - opener + passed)).setJump opener passed
  let closed := jumped.modify closer fun mark => { mark with mayOpen := false }
  let opened := closed.modify opener fun mark =>
    { mark with mayClose := false, closer? := some closer }
  { opened with last? := none }

/-- Take the next mark. -/
def step (pairing : Pairing) (number : Nat) : Pairing :=
  let closer := pairing.mark number
  let continues :=
    (pairing.mark pairing.header).character = closer.character
      && pairing.last?.any (· + 1 == closer.place)
  let header := if continues then pairing.header else number
  let pairing := { pairing with header, last? := some closer.place }
  if !closer.mayClose then pairing
  else
    let kind := (closer.character, closer.mayOpen, closer.length % 3)
    let count := header - pairing.jump header
    match pairing.opener? closer ((pairing.floors.lookup kind).getD 0) (count + 1) count with
    | some opener => pairing.pair opener number
    | none =>
      if count = 0 then pairing
      else { pairing with floors := (kind, count) :: pairing.floors }

def all (marks : List Mark) : Pairing :=
  (List.range marks.length).foldl step
    { marks := marks.toArray, jumps := Array.replicate marks.length 0, floors := [],
      header := 0, last? := none }

end Pairing

def marksOf : Nat → List Piece → List Mark
  | _, [] => []
  | place, .mark character length mayOpen mayClose :: rest =>
    { place, character, length, mayOpen, mayClose, closer? := none } :: marksOf (place + 1) rest
  | place, .settled _ :: rest => marksOf (place + 1) rest

/-- Write the pieces as events.  `paired` holds, for each mark in order, whether it
opens or closes emphasis. -/
def eventsOf : List Piece → List (Option Event) → List Event
  | [], _ => []
  | .settled events :: rest, paired => events ++ eventsOf rest paired
  | .mark character _ _ _ :: rest, paired =>
    (paired.head?.join).getD (.text [character]) :: eventsOf rest paired.tail

def outcomes (marks : List Mark) : List (Option Event) :=
  let closers := marks.filterMap (·.closer?)
  let flags := closers.foldl (fun (flags : Array Bool) closer => flags.setIfInBounds closer true)
    (Array.replicate marks.length false)
  (marks.zip flags.toList).map fun (mark, isCloser) =>
    if mark.closer?.isSome then some .emphasisOpen
    else if isCloser then some .emphasisClose
    else none

def settle (pieces : List Piece) : List Event :=
  eventsOf pieces (outcomes (Pairing.all (marksOf 0 pieces)).marks.toList)

end Markup

end Crosslink

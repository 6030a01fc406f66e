import Crosslink.Text.Basic

namespace Crosslink

/-!
Counts by kind, in the order in which the kinds first came up.
-/

/-- For each kind, how often it came up. -/
abbrev Tally := List (Text × Nat)

namespace Tally

/-- How often a kind came up. -/
def count (tally : Tally) (kind : Text) : Nat :=
  (tally.lookup kind).getD 0

def add (kind : Text) (times : Nat) : Tally → Tally
  | [] => [(kind, times)]
  | entry :: rest =>
    if entry.1 = kind then (kind, entry.2 + times) :: rest else entry :: add kind times rest

/-- Add the counts of another tally. -/
def merge (tally more : Tally) : Tally :=
  more.foldl (fun tally entry => add entry.1 entry.2 tally) tally

/-- The sum of all counts. -/
def total (tally : Tally) : Nat :=
  (tally.map (·.2)).foldl (· + ·) 0

end Tally

end Crosslink

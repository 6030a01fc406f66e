import Crosslink.Edit.Replacement
import Crosslink.Files.Failure
import Crosslink.Link.Basic

namespace Crosslink

/-!
What a rule makes of the links of one file: replacements, reports of broken links, and
notes on what it saw.  A rule treats each link on its own and stops at the first one
that it cannot treat; the notes up to there are kept.
-/

/-- A link whose target is missing and that could not be repaired. -/
structure BrokenLink where
  /-- The file that holds the link. -/
  file : Text
  /-- The number of the link's line. -/
  lineNumber : Int
  line : Text
  deriving Repr, DecidableEq

def BrokenLink.type : Text := "LINK TARGET NOT FOUND"

/-- How weighty a note is, from the least weight to the greatest. -/
inductive Weight where
  | debug
  | info
  | warning
  | error
  | critical
  deriving Repr, DecidableEq

/-- Something noted while files are worked on. -/
inductive Note where
  /-- A link is to be written in another form, by the named strategy. -/
  | revised (file oldHref newHref strategy : Text)
  /-- A variant of a link exists at a path. -/
  | variant (candidate href path : Text)
  /-- The target of a link is missing. -/
  | missing (file : Text) (line : Int) (href : Text)
  /-- An edit by position was left out. -/
  | missedAt (start : Int) (href : Text)
  /-- An edit by line was left out. -/
  | missedOnLine (line : Int) (href : Text)
  /-- A file was written back with so many edits. -/
  | updated (count : Nat) (file : Text)
  /-- The work on a file failed. -/
  | failed (file reason : Text)
  deriving Repr, DecidableEq

namespace Note

def weight : Note → Weight
  | updated .. => .info
  | failed .. => .warning
  | _ => .debug

/-- The wording of a note. -/
def message : Note → Text
  | revised file oldHref newHref strategy =>
    file ++ (": " : Text) ++ oldHref ++ (" -> " : Text) ++ newHref ++ (" (" : Text) ++ strategy
      ++ [')']
  | variant candidate href path =>
    ("Variant " : Text) ++ candidate ++ (" of " : Text) ++ href ++ (" exists at " : Text) ++ path
  | missing file line href =>
    file ++ ':' :: Text.ofInt line ++ (": link target not found: " : Text) ++ href
  | missedAt start href =>
    ("Offset replacement not applied at " : Text) ++ Text.ofInt start ++ (": " : Text) ++ href
  | missedOnLine line href =>
    ("Line replacement not applied on line " : Text) ++ Text.ofInt line ++ (": " : Text) ++ href
  | updated count file =>
    ("Updated " : Text) ++ Text.ofNat count ++ (" link(s) in " : Text) ++ file
  | failed file reason =>
    ("Link processing failed for " : Text) ++ file ++ (": " : Text) ++ reason

end Note

/-- What a rule makes of one link. -/
structure Treatment where
  /-- The replacement, if the link is to be revised. -/
  replacement? : Option Replacement
  /-- The report, if the link is broken. -/
  broken? : Option BrokenLink
  notes : List Note
  deriving Repr, DecidableEq

/-- The link is left as it is. -/
def Treatment.none : Treatment where
  replacement? := Option.none
  broken? := Option.none
  notes := []

/-- What a rule makes of the links of one file. -/
structure Generation where
  /-- The replacements in the order of their links. -/
  replacements : List Replacement
  /-- The broken links in order. -/
  broken : List BrokenLink
  /-- The notes in order. -/
  notes : List Note
  /-- What stopped the rule, if it did not come to the end. -/
  failure? : Option Failure
  deriving Repr, DecidableEq

namespace Generation

/-- Nothing has been made. -/
def empty : Generation where
  replacements := []
  broken := []
  notes := []
  failure? := none

/-- Put what was made of one link in front. -/
def cons (treatment : Treatment) (rest : Generation) : Generation where
  replacements := treatment.replacement?.toList ++ rest.replacements
  broken := treatment.broken?.toList ++ rest.broken
  notes := treatment.notes ++ rest.notes
  failure? := rest.failure?

/-- Treat each link in turn up to the first that cannot be treated. -/
def ofLinks (treat : Link → Except Failure Treatment) : List Link → Generation
  | [] => empty
  | link :: rest =>
    match treat link with
    | .ok treatment => cons treatment (ofLinks treat rest)
    | .error failure => { empty with failure? := some failure }

/-- The replacements and the broken links, if the rule came to the end. -/
def result (generation : Generation) : Except Failure (List Replacement × List BrokenLink) :=
  match generation.failure? with
  | some failure => .error failure
  | none => .ok (generation.replacements, generation.broken)

end Generation

end Crosslink

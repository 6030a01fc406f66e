import Crosslink.Edit.Apply
import Crosslink.Link.Extract
import Crosslink.Revision.Check
import Crosslink.Revision.Normalize
import Crosslink.Revision.Substitute

namespace Crosslink

/-!
Running one rule over many files.  Each file is read, its links are given to the rule,
and the edits are made in its text; the text is written back if an edit asks for it.  A
failure ends the work on its own file only.  What happened to each file is kept, and
the totals of a run are read off these records.
-/

variable {σ : Type} [Files σ]

/-- A rule that makes replacements: given the files, a file's name, its links and its
lines. -/
abbrev Rule (σ : Type) := σ → Text → List Link → List Text → Generation

/-- What a rule is given of one file. -/
structure Sight where
  /-- The links of the file. -/
  links : List Link
  /-- The lines of the file. -/
  lines : List Text
  deriving Repr, DecidableEq

structure FileRecord where
  file : Text
  /-- What the rule was given, if the file could be read. -/
  sight? : Option Sight
  /-- The broken links that the rule reported. -/
  broken : List BrokenLink
  /-- The notes in order. -/
  notes : List Note
  /-- What came of the edits, or what stopped the work. -/
  result : Except Failure Edit.Outcome

namespace FileRecord

def failed (file : Text) (sight? : Option Sight) (broken : List BrokenLink) (notes : List Note)
    (failure : Failure) : FileRecord where
  file
  sight?
  broken
  notes
  result := .error failure

/-- An edit was made for whose sake the file is written back. -/
def isModified (record : FileRecord) : Bool :=
  match record.result with
  | .ok outcome => outcome.triggersWrite
  | .error _ => false

/-- The file and what stopped the work on it. -/
def failure? (record : FileRecord) : Option (Text × Failure) :=
  match record.result with
  | .ok _ => none
  | .error failure => some (record.file, failure)

/-- What came of the edits, if the work came to the end. -/
def outcome? (record : FileRecord) : Option Edit.Outcome :=
  match record.result with
  | .ok outcome => some outcome
  | .error _ => none

end FileRecord

namespace Edit.Outcome

def misses (outcome : Edit.Outcome) : List Note :=
  outcome.missed.map fun replacement =>
    match replacement.range? with
    | some range => .missedAt range.1 replacement.oldHref
    | none => .missedOnLine replacement.line replacement.oldHref

end Edit.Outcome

namespace Batch

/-- Make the edits of a rule in a file and write it back if that is wanted and an edit
asks for it. -/
def finishFile (files : σ) (write : Bool) (file : Text) (content : Text) (sight : Sight)
    (generation : Generation) : FileRecord × σ :=
  match generation.result with
  | .error failure =>
    (FileRecord.failed file (some sight) [] generation.notes failure, files)
  | .ok (replacements, broken) =>
    let outcome := Edit.apply Edit.defaultWindow content replacements
    let notes := generation.notes ++ outcome.misses
    if write && outcome.triggersWrite then
      match Files.write files file outcome.content with
      | (.ok (), files) =>
        ({ file, sight? := some sight, broken, result := .ok outcome
           notes := notes ++ [.updated outcome.applied file] }, files)
      | (.error failure, files) =>
        (FileRecord.failed file (some sight) broken notes failure, files)
    else ({ file, sight? := some sight, broken, notes, result := .ok outcome }, files)

def processFile (files : σ) (rule : Rule σ) (write : Bool) (file : Text) : FileRecord × σ :=
  match Files.read files file with
  | .error failure => (FileRecord.failed file none [] [] failure, files)
  | .ok content =>
    let sight : Sight := { links := extractLinks content, lines := content.splitLines }
    finishFile files write file content sight (rule files file sight.links sight.lines)

/-- Run a rule over files in turn. -/
def processFiles (rule : Rule σ) (write : Bool) : σ → List Text → List FileRecord × σ
  | files, [] => ([], files)
  | files, file :: rest =>
    let (record, files) := processFile files rule write file
    let (records, files) := processFiles rule write files rest
    (record :: records, files)

/-- Run a rule over the markdown files that a path names. -/
def processPath (files : σ) (rule : Rule σ) (write : Bool) (path : Text) :
    Except Failure (List FileRecord) × σ :=
  match Files.collect files path with
  | .error failure => (.error failure, files)
  | .ok found =>
    let (records, files) := processFiles rule write files found
    (.ok records, files)

/-- The totals of a run. -/
structure Summary where
  /-- The number of files. -/
  total : Nat
  /-- The number of files that were processed without failure. -/
  processed : Nat
  /-- The number of links revised, summed over the kinds of edits of each file. -/
  revised : Nat
  /-- The number of edits made. -/
  applied : Nat
  /-- The edits made, by kind. -/
  tally : Tally
  /-- The files in which an edit was made for whose sake a file is written back. -/
  modified : List Text
  /-- The files that failed, and why. -/
  failures : List (Text × Failure)
  broken : List BrokenLink
  deriving Repr, DecidableEq

/-- The totals of what happened to some files. -/
def summarize (records : List FileRecord) : Summary :=
  let outcomes := records.filterMap (·.outcome?)
  { total := records.length
    processed := outcomes.length
    revised := (outcomes.map (·.tally.total)).foldl (· + ·) 0
    applied := (outcomes.map (·.applied)).foldl (· + ·) 0
    tally := outcomes.foldl (fun tally outcome => tally.merge outcome.tally) []
    modified := (records.filter (·.isModified)).map (·.file)
    failures := records.filterMap (·.failure?)
    broken := records.flatMap (·.broken) }

/-- The notes of a run: those on each file, and why it failed if it did. -/
def notes (records : List FileRecord) : List Note :=
  records.flatMap fun record =>
    record.notes ++ (record.failure?.toList.map fun failed => .failed failed.1 failed.2.message)

/-- The rule that writes links in their canonical form. -/
def normalizing (cwd : Text) (rules : Rules) : Rule σ :=
  fun files file links _ => Normalize.generate (Files.present files) cwd rules file links

/-- The rule that exchanges the beginning of links. -/
def substituting (oldBase newBase : Text) (exclusions : List Text) : Rule σ :=
  fun _ _ links _ => Substitute.generate oldBase newBase exclusions links

/-- The rule that looks for links whose target is missing. -/
def checking (cwd : Text) (rules : Rules) : Rule σ :=
  fun files file links lines => Check.generate (Files.present files) cwd rules file lines links

end Batch

end Crosslink

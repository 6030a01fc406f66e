import Crosslink.Revision.Batch

namespace Crosslink
namespace Batch

/-!
What the work on one file can come to.  There are five ways for it to end, and with each of
them it is said what is recorded, which broken links are reported, and which files there are
afterwards.  A run is such a step for each file in turn.
-/

variable {σ : Type} [Files σ]

/-- What becomes of a text when the edits that a rule asks for are made in it, and which broken
links the rule reports. -/
def revise (rule : List Link → List Text → Generation) (content : Text) :
    Except Failure (Edit.Outcome × List BrokenLink) :=
  match (rule (extractLinks content) content.splitLines).result with
  | .ok (replacements, broken) => .ok (Edit.apply Edit.defaultWindow content replacements, broken)
  | .error failure => .error failure

theorem revise_eq_ok_iff {rule : List Link → List Text → Generation} {content : Text}
    {outcome : Edit.Outcome} {broken : List BrokenLink} :
    revise rule content = .ok (outcome, broken) ↔ ∃ replacements,
      (rule (extractLinks content) content.splitLines).result = .ok (replacements, broken) ∧
        Edit.apply Edit.defaultWindow content replacements = outcome := by
  constructor
  · intro revised
    unfold revise at revised
    split at revised
    · next replacements _ made =>
        cases revised
        exact ⟨replacements, made, rfl⟩
    · cases revised
  · rintro ⟨replacements, made, rfl⟩
    rw [revise, made]

/-- How the work on one file ends: what is recorded, the reported links, the files afterwards. -/
inductive Step (rule : Rule σ) (write : Bool) (files : σ) (file : Text) :
    Except Failure Edit.Outcome → List BrokenLink → σ → Prop
  /-- The file cannot be read. -/
  | unread {failure : Failure} (stopped : Files.read files file = .error failure) :
      Step rule write files file (.error failure) [] files
  /-- The rule cannot treat the file. -/
  | refused {content : Text} {failure : Failure} (source : Files.read files file = .ok content)
      (stopped : revise (rule files file) content = .error failure) :
      Step rule write files file (.error failure) [] files
  /-- The file need not be written. -/
  | spared {content : Text} {outcome : Edit.Outcome} {broken : List BrokenLink}
      (source : Files.read files file = .ok content)
      (revised : revise (rule files file) content = .ok (outcome, broken))
      (unasked : (write && outcome.triggersWrite) = false) :
      Step rule write files file (.ok outcome) broken files
  /-- The file is written. -/
  | stored {content : Text} {outcome : Edit.Outcome} {broken : List BrokenLink} {next : σ}
      (source : Files.read files file = .ok content)
      (revised : revise (rule files file) content = .ok (outcome, broken))
      (asked : (write && outcome.triggersWrite) = true)
      (written : Files.write files file outcome.content = (.ok (), next)) :
      Step rule write files file (.ok outcome) broken next
  /-- The file cannot be written. -/
  | unstored {content : Text} {outcome : Edit.Outcome} {broken : List BrokenLink}
      {failure : Failure} {next : σ} (source : Files.read files file = .ok content)
      (revised : revise (rule files file) content = .ok (outcome, broken))
      (asked : (write && outcome.triggersWrite) = true)
      (stopped : Files.write files file outcome.content = (.error failure, next)) :
      Step rule write files file (.error failure) broken next

theorem step_processFile (rule : Rule σ) (write : Bool) (files : σ) (file : Text) :
    Step rule write files file (processFile files rule write file).1.result
      (processFile files rule write file).1.broken (processFile files rule write file).2 := by
  unfold processFile
  cases source : Files.read files file with
  | error failure => exact .unread source
  | ok content =>
      cases made : (rule files file (extractLinks content) content.splitLines).result with
      | error failure =>
          simp only [finishFile, made]
          exact .refused source (by rw [revise, made])
      | ok pair =>
          rcases pair with ⟨replacements, broken⟩
          have revised : revise (rule files file) content =
              .ok (Edit.apply Edit.defaultWindow content replacements, broken) :=
            revise_eq_ok_iff.mpr ⟨replacements, made, rfl⟩
          simp only [finishFile, made]
          generalize Edit.apply Edit.defaultWindow content replacements = outcome at revised ⊢
          cases asked : write && outcome.triggersWrite with
          | false => exact .spared source revised asked
          | true =>
              cases written : Files.write files file outcome.content with
              | mk result next =>
                  cases result with
                  | ok => exact .stored source revised asked written
                  | error failure => exact .unstored source revised asked written

theorem Step.eq_of_not_write {rule : Rule σ} {files next : σ} {file : Text}
    {result : Except Failure Edit.Outcome} {broken : List BrokenLink}
    (step : Step rule false files file result broken next) : next = files := by
  cases step with
  | unread => rfl
  | refused => rfl
  | spared => rfl
  | stored _ _ asked => cases asked
  | unstored _ _ asked => cases asked

theorem Step.revised_of_ok {rule : Rule σ} {write : Bool} {files next : σ} {file : Text}
    {outcome : Edit.Outcome} {broken : List BrokenLink}
    (step : Step rule write files file (.ok outcome) broken next) :
    ∃ content, Files.read files file = .ok content ∧
      revise (rule files file) content = .ok (outcome, broken) := by
  cases step with
  | spared source revised _ => exact ⟨_, source, revised⟩
  | stored source revised _ _ => exact ⟨_, source, revised⟩

theorem Step.eq_or_eq_write {rule : Rule σ} {write : Bool} {files next : σ} {file : Text}
    {result : Except Failure Edit.Outcome} {broken : List BrokenLink}
    (step : Step rule write files file result broken next) :
    next = files ∨ ∃ old content, Files.read files file = .ok old ∧
      (Files.write files file content).2 = next := by
  cases step with
  | unread => exact Or.inl rfl
  | refused => exact Or.inl rfl
  | spared => exact Or.inl rfl
  | stored source _ _ written => exact Or.inr ⟨_, _, source, congrArg Prod.snd written⟩
  | unstored source _ _ stopped => exact Or.inr ⟨_, _, source, congrArg Prod.snd stopped⟩

/-- What the work on a file comes to where nothing stops the writing: what is recorded, and the
reported links. -/
def findings (rule : Rule σ) (files : σ) (file : Text) :
    Except Failure Edit.Outcome × List BrokenLink :=
  match Files.read files file with
  | .error failure => (.error failure, [])
  | .ok content =>
    match revise (rule files file) content with
    | .error failure => (.error failure, [])
    | .ok (outcome, broken) => (.ok outcome, broken)

/-- Where nothing stops the writing, it makes no difference whether writing is wanted. -/
theorem Step.eq_findings {rule : Rule σ} {write : Bool} {files next : σ} {file : Text}
    {result : Except Failure Edit.Outcome} {broken : List BrokenLink}
    (step : Step rule write files file result broken next)
    (free : ∀ content, (Files.write files file content).1 = .ok ()) :
    findings rule files file = (result, broken) := by
  unfold findings
  cases step with
  | unread stopped => rw [stopped]
  | refused source stopped => simp only [source, stopped]
  | spared source revised _ => simp only [source, revised]
  | stored source revised _ _ => simp only [source, revised]
  | @unstored _ outcome _ _ _ _ _ _ stopped =>
      have written := free outcome.content
      rw [stopped] at written
      cases written

/-- What is recorded of a file depends on its text, on what the rule makes of it, and on whether
it can be written. -/
theorem processFile_fst_congr {rule : Rule σ} (write : Bool) {files now : σ} {file : Text}
    (read : Files.read now file = Files.read files file) (same : rule now file = rule files file)
    (written : ∀ old, Files.read files file = .ok old →
      ∀ content, (Files.write now file content).1 = (Files.write files file content).1) :
    (processFile now rule write file).1 = (processFile files rule write file).1 := by
  unfold processFile
  rw [read, same]
  split
  · rfl
  · next content source =>
      simp only [finishFile]
      split
      · rfl
      · next replacements broken made =>
          generalize Edit.apply Edit.defaultWindow content replacements = outcome
          have agree := written content source outcome.content
          cases write && outcome.triggersWrite with
          | false => rfl
          | true =>
              cases later : Files.write now file outcome.content with
              | mk result next =>
                  cases first : Files.write files file outcome.content with
                  | mk other rest =>
                      rw [later, first] at agree
                      cases agree
                      cases result with
                      | ok => rfl
                      | error failure => rfl

theorem exists_processFile_refused {files : σ} {rule : Rule σ} {file content : Text}
    {failure : Failure} (write : Bool) (source : Files.read files file = .ok content)
    (stopped : (rule files file (extractLinks content) content.splitLines).result =
      .error failure) :
    ∃ sight notes, processFile files rule write file =
      (FileRecord.failed file (some sight) [] notes failure, files) := by
  simp only [processFile, source, finishFile, stopped]
  exact ⟨_, _, rfl⟩

@[simp] theorem file_processFile (files : σ) (rule : Rule σ) (write : Bool) (file : Text) :
    (processFile files rule write file).1.file = file := by
  unfold processFile
  split
  · rfl
  · simp only [finishFile]
    split
    · rfl
    · split
      · split <;> rfl
      · rfl

/-! ## Runs -/

theorem processFiles_cons (rule : Rule σ) (write : Bool) (files : σ) (file : Text)
    (rest : List Text) :
    processFiles rule write files (file :: rest) =
      ((processFile files rule write file).1 ::
          (processFiles rule write (processFile files rule write file).2 rest).1,
        (processFiles rule write (processFile files rule write file).2 rest).2) := rfl

/-- A run over some files and then over more is one run. -/
theorem processFiles_append (rule : Rule σ) (write : Bool) (files : σ) (first second : List Text) :
    processFiles rule write files (first ++ second) =
      ((processFiles rule write files first).1 ++
          (processFiles rule write (processFiles rule write files first).2 second).1,
        (processFiles rule write (processFiles rule write files first).2 second).2) := by
  induction first generalizing files with
  | nil => rfl
  | cons file rest inductionHypothesis =>
      rw [List.cons_append, processFiles_cons, inductionHypothesis, processFiles_cons]
      rfl

/-- A run records every file once, in order. -/
@[simp] theorem map_file_processFiles (rule : Rule σ) (write : Bool) (files : σ) (list : List Text) :
    (processFiles rule write files list).1.map (·.file) = list := by
  induction list generalizing files with
  | nil => rfl
  | cons file rest inductionHypothesis =>
      rw [processFiles_cons, List.map_cons, inductionHypothesis, file_processFile]

@[simp] theorem length_processFiles (rule : Rule σ) (write : Bool) (files : σ) (list : List Text) :
    (processFiles rule write files list).1.length = list.length := by
  rw [← List.length_map FileRecord.file]
  exact congrArg List.length (map_file_processFiles rule write files list)

/-- What is recorded in a run comes from the step for its file, taken where the run over the
files before it has led. -/
theorem mem_processFiles_iff {rule : Rule σ} {write : Bool} {files : σ} {list : List Text}
    {record : FileRecord} :
    record ∈ (processFiles rule write files list).1 ↔
      ∃ before file after, list = before ++ file :: after ∧
        record = (processFile (processFiles rule write files before).2 rule write file).1 := by
  constructor
  · intro member
    induction list generalizing files with
    | nil => exact absurd member List.not_mem_nil
    | cons first rest inductionHypothesis =>
        rcases List.mem_cons.mp member with here | later
        · exact ⟨[], first, rest, rfl, here⟩
        · rcases inductionHypothesis later with ⟨before, file, after, split, made⟩
          exact ⟨first :: before, file, after, by rw [split, List.cons_append], made⟩
  · rintro ⟨before, file, after, split, made⟩
    rw [split, processFiles_append, processFiles_cons, made]
    exact List.mem_append_right _ List.mem_cons_self

/-- What holds of the files at first, and what each step keeps for the files still to come,
holds to the end. -/
theorem processFiles_invariant (rule : Rule σ) (write : Bool) (Holds : σ → List Text → Prop)
    (kept : ∀ files file rest, Holds files (file :: rest) →
      Holds (processFile files rule write file).2 rest)
    (files : σ) (list : List Text) (initially : Holds files list) :
    Holds (processFiles rule write files list).2 [] := by
  induction list generalizing files with
  | nil => exact initially
  | cons file rest inductionHypothesis => exact inductionHypothesis _ (kept files file rest initially)

/-- A run that writes nothing leaves the files as they are. -/
@[simp] theorem processFiles_dry (rule : Rule σ) (files : σ) (list : List Text) :
    (processFiles rule false files list).2 = files :=
  processFiles_invariant rule false (fun now _ => now = files)
    (fun now file _ same => (step_processFile rule false now file).eq_of_not_write.trans same)
    files list rfl

end Batch
end Crosslink

import Crosslink.Proofs.Files.Listing
import Crosslink.Proofs.Revision.Accounts

namespace Crosslink
namespace Batch

/-!
Rules that look at a store only to see what is there.  A run does not change what is there, so
such a rule makes of each file what it would have made of it in the store as it was at first:
the files of a run have nothing to do with each other.
-/

section Steady

/-- One of the rules by which links are revised. -/
inductive Task where
  /-- Links are written in their canonical form. -/
  | normalizing (rules : Rules)
  /-- The beginning of links is exchanged. -/
  | substituting (oldBase newBase : Text) (exclusions : List Text)
  /-- Links whose target is missing are looked for. -/
  | checking (rules : Rules)
  deriving Repr, DecidableEq

def Task.rule {σ : Type} [Files σ] (cwd : Text) : Task → Rule σ
  | normalizing rules => Batch.normalizing cwd rules
  | substituting oldBase newBase exclusions => Batch.substituting oldBase newBase exclusions
  | checking rules => Batch.checking cwd rules

theorem Task.steady_rule {σ : Type} [Files σ] (cwd : Text) (task : Task) :
    Steady (task.rule cwd : Rule σ) := by
  intro files other same
  cases task with
  | normalizing rules =>
      funext file links lines
      exact congrArg (fun present => Normalize.generate present cwd rules file links) same
  | substituting oldBase newBase exclusions => rfl
  | checking rules =>
      funext file links lines
      exact congrArg (fun present => Check.generate present cwd rules file lines links) same

variable {rule : Rule Store} {write : Bool} {store now : Store} {file : Text}

/-- What is stored for a file in the end depends on its own text only. -/
theorem Steady.get?_processFile (steady : Steady rule) (alike : Store.Alike store now)
    (same : now.get? (store.resolve file) = store.get? (store.resolve file)) :
    (processFile now rule write file).2.get? (store.resolve file) =
      (processFile store rule write file).2.get? (store.resolve file) := by
  have recorded : (processFile now rule write file).1 = (processFile store rule write file).1 :=
    storeFrame.processFile_fst steady alike same
  have later := (step_processFile rule write now file).get?_self
  rw [alike.resolve, recorded, same] at later
  rw [later, (step_processFile rule write store file).get?_self]

/-- A run records of each file what the work on that file alone records. -/
theorem Steady.processFiles_fst (steady : Steady rule) {files : List Text}
    (distinct : (files.map store.resolve).Nodup) :
    (processFiles rule write store files).1 =
      files.map fun file => (processFile store rule write file).1 :=
  storeFrame.processFiles_fst steady distinct

theorem Steady.get?_processFiles (steady : Steady rule) {files : List Text}
    (distinct : (files.map store.resolve).Nodup) (member : file ∈ files) :
    (processFiles rule write store files).2.get? (store.resolve file) =
      (processFile store rule write file).2.get? (store.resolve file) := by
  rcases List.mem_iff_append.mp member with ⟨before, after, split⟩
  rw [get?_after distinct split]
  exact steady.get?_processFile (alike_processFiles rule write store before)
    (get?_before distinct split)

/-- The order of the files of a run plays no part: in any order the same texts are stored in
the end, and the totals are the same but for the order in which files are listed. -/
theorem processFiles_perm (task : Task) (cwd : Text) (write : Bool) (store : Store)
    (files other : List Text) (permuted : files.Perm other)
    (distinct : (files.map store.resolve).Nodup) :
    (∀ key, (processFiles (task.rule cwd) write store files).2.get? key =
        (processFiles (task.rule cwd) write store other).2.get? key) ∧
      (summarize (processFiles (task.rule cwd) write store files).1).Matches
        (summarize (processFiles (task.rule cwd) write store other).1) := by
  have steady : Steady (task.rule cwd : Rule Store) := task.steady_rule cwd
  have otherDistinct : (other.map store.resolve).Nodup :=
    (permuted.map store.resolve).nodup_iff.mp distinct
  constructor
  · intro key
    by_cases held : ∃ file ∈ files, store.resolve file = key
    · rcases held with ⟨file, member, rfl⟩
      rw [steady.get?_processFiles distinct member,
        steady.get?_processFiles otherDistinct (permuted.mem_iff.mp member)]
    · rw [get?_processFiles _ write fun file member same => held ⟨file, member, same⟩,
        get?_processFiles _ write fun file member same =>
          held ⟨file, permuted.mem_iff.mpr member, same⟩]
  · rw [steady.processFiles_fst distinct, steady.processFiles_fst otherDistinct]
    exact summarize_matches (permuted.map _)

/-- A file with a broken link, one with a link that climbs too far and one that is missing, in
two orders. -/
theorem processFiles_perm_swapped :
    let store := Store.ofFiles "/w"
      [("/w/a.md", "[x](no.md)"), ("/w/b/c.md", "[y](../../a.md)")] []
    let files : List Text := ["a.md", "b/c.md", "d.md"]
    let other : List Text := ["d.md", "b/c.md", "a.md"]
    let rules : Rules := { root := "/w", folders := [], exclusions := [] }
    let run := processFiles ((Task.checking rules).rule "/w") true store
    ((∀ key, (run files).2.get? key = (run other).2.get? key) ∧
        (summarize (run files).1).Matches (summarize (run other).1)) ∧
      (summarize (run files).1).modified = ["b/c.md"] ∧
      (summarize (run files).1).failures.map (·.1) = ["d.md"] ∧
      (summarize (run files).1).broken.map (·.file) = ["a.md"] :=
  ⟨processFiles_perm _ _ _ _ _ _ (by decide) (by decide +kernel), by decide +kernel,
    by decide +kernel, by decide +kernel⟩

end Steady

/-!
## Runs that are only rehearsed

The files that a path names in a rooted store stand for keys of their own, a steady rule makes of
each of them what it makes of it in the store as it was at first, and a write that is not denied
does not fail: so a run that writes nothing comes to the same totals as the run that it stands for.
-/

variable {rule : Rule Store} {store : Store} {files : List Text}

theorem fst_write_of_free (free : store.denied = []) (file content : Text) :
    (Files.write store file content).1 = .ok () := by
  have allowed : file ∉ store.denied := by
    rw [free]
    exact List.not_mem_nil
  exact congrArg Prod.fst (Store.write_of_not_mem_denied allowed content)

/-- What is recorded of a file is the same whether it is to be written or not. -/
theorem findings_processFile (rule : Rule Store) (write : Bool) (free : store.denied = []) (file : Text) :
    ((processFile store rule write file).1.result, (processFile store rule write file).1.broken) =
      findings rule store file :=
  ((step_processFile rule write store file).eq_findings (fst_write_of_free free file)).symm

/-- The totals of a run are the same whether files are to be written or not. -/
theorem Steady.summarize_dry (steady : Steady rule) (free : store.denied = [])
    (distinct : (files.map store.resolve).Nodup) :
    summarize (processFiles rule false store files).1 =
      summarize (processFiles rule true store files).1 := by
  have same (file : Text) := (findings_processFile rule false free file).trans
    (findings_processFile rule true free file).symm
  rw [steady.processFiles_fst distinct, steady.processFiles_fst distinct]
  apply summarize_congr
  case file =>
    intro file _
    rw [file_processFile, file_processFile]
  case result => exact fun file _ => (Prod.ext_iff.mp (same file)).1
  case broken => exact fun file _ => (Prod.ext_iff.mp (same file)).2

/-- A modified file ends up with the text that its edits make of the text it had at first. -/
theorem Steady.read_of_modified (steady : Steady rule)
    (distinct : (files.map store.resolve).Nodup) {file : Text}
    (modified : file ∈ (summarize (processFiles rule true store files).1).modified) :
    ∃ content outcome broken, store.read file = .ok content ∧
      revise (rule store file) content = .ok (outcome, broken) ∧
      (processFiles rule true store files).2.read file = .ok outcome.content := by
  rcases stored_of_mem_modified distinct modified with
    ⟨before, _, content, outcome, broken, _, source, revised, kept⟩
  rw [storeFrame.rule_eq steady (alike_processFiles rule true store before)] at revised
  refine ⟨content, outcome, broken, source, revised, ?_⟩
  rw [Store.read_eq_ok_iff, (alike_processFiles rule true store files).resolve]
  exact kept

/-- A run that is only rehearsed comes to the same end as the run itself: both find that
something is not there, or both come to the same totals; and the files that are listed as
modified end up with the texts that their edits make of the texts they had at first. -/
theorem processPath_rehearsed (task : Task) (cwd : Text) (store : Store) (path : Text)
    (rooted : store.Rooted) (free : store.denied = []) :
    let rehearsal := processPath store (task.rule cwd) false path
    let run := processPath store (task.rule cwd) true path
    (∃ failure, failure.isAbsence = true ∧ rehearsal.1 = .error failure ∧
      run.1 = .error failure) ∨
    ∃ rehearsed records, rehearsal.1 = .ok rehearsed ∧ run.1 = .ok records ∧
      summarize rehearsed = summarize records ∧
      ∀ file ∈ (summarize records).modified, ∃ content outcome broken,
        store.read file = .ok content ∧
        revise (task.rule cwd store file) content = .ok (outcome, broken) ∧
        run.2.read file = .ok outcome.content := by
  have steady : Steady (task.rule cwd : Rule Store) := task.steady_rule cwd
  dsimp only
  unfold processPath
  cases collected : Files.collect store path with
  | error failure => exact Or.inl ⟨failure, rooted.collect_eq_error collected, rfl, rfl⟩
  | ok found =>
      have distinct := rooted.collect collected
      exact Or.inr ⟨_, _, rfl, rfl, steady.summarize_dry free distinct,
        fun file modified => steady.read_of_modified distinct modified⟩

/-- A directory with a file whose link climbs too far, below one with a broken link. -/
theorem processPath_rehearsed_repair :
    let store := Store.ofFiles "/w"
      [("/w/b/c.md", "[y](../../a.md)"), ("/w/a.md", "[x](no.md)")] []
    let task := Task.checking { root := "/w", folders := [], exclusions := [] }
    let rehearsal := processPath store (task.rule "/w") false "."
    let run := processPath store (task.rule "/w") true "."
    ((∃ failure, failure.isAbsence = true ∧ rehearsal.1 = .error failure ∧
        run.1 = .error failure) ∨
      ∃ rehearsed records, rehearsal.1 = .ok rehearsed ∧ run.1 = .ok records ∧
        summarize rehearsed = summarize records ∧
        ∀ file ∈ (summarize records).modified, ∃ content outcome broken,
          store.read file = .ok content ∧
          revise (task.rule "/w" store file) content = .ok (outcome, broken) ∧
          run.2.read file = .ok outcome.content) ∧
      run.1.toOption.map (fun records => (summarize records).modified) =
        some (["./b/c.md"] : List Text) ∧
      run.2.get? "/w/b/c.md" = some ("[y](../a.md)" : Text) :=
  ⟨processPath_rehearsed _ _ _ _
      ⟨Store.normal_ofFiles _ _ _, by decide +kernel, by decide +kernel⟩ rfl,
    by decide +kernel, by decide +kernel⟩

end Batch
end Crosslink

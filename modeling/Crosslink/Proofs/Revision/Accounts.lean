import Crosslink.Proofs.Files.Store
import Crosslink.Proofs.Revision.Frame
import Crosslink.Proofs.Revision.Totals

namespace Crosslink
namespace Batch

/-!
The accounts of a run over files of a store.  A step changes the text of its own file at most,
so as long as no two files stand for the same key each file is worked on as it was stored at
first, and what is recorded of it says exactly what has become of it.
-/

variable {rule : Rule Store} {write : Bool} {store next : Store} {file : Text}
variable {result : Except Failure Edit.Outcome} {broken : List BrokenLink}

/-- A store is the same but for the texts of its keys, as long as only keys that are there are
written. -/
def storeFrame : Frame Store Text (Option Text) where
  Alike := Store.Alike
  place := Store.resolve
  cell := Store.get?
  refl := Store.Alike.refl
  trans := Store.Alike.trans
  place_eq := Store.Alike.resolve
  present_eq := by
    intro store now alike
    funext path
    exact congrArg Except.ok (congrFun alike.present path)
  read_eq := by
    intro store now file alike same
    refine Store.read_congr alike.cwd ?_
    rw [alike.resolve]
    exact same
  write_eq := fun alike _ _ content => alike.fst_write _ content
  alike_write := fun source content =>
    Store.alike_write (Entries.mem_keys_of_lookup (Store.read_eq_ok_iff.mp source)) content
  cell_write := fun _ content _ different => Store.get?_write_of_ne different content

/-! ## One step -/

/-- A step that is recorded without an edit that asks for writing leaves the store as it is. -/
theorem Step.eq_of_not_modified (step : Step rule write store file result broken next)
    (unmodified : ∀ outcome, result = .ok outcome → outcome.triggersWrite = false) :
    next = store := by
  cases step with
  | unread => rfl
  | refused => rfl
  | spared => rfl
  | stored _ _ asked =>
      rw [unmodified _ rfl, Bool.and_false] at asked
      cases asked
  | unstored _ _ _ stopped => exact Store.eq_of_write_eq_error stopped

theorem Step.stored_of_modified {outcome : Edit.Outcome}
    (step : Step rule true store file (.ok outcome) broken next)
    (triggers : outcome.triggersWrite = true) :
    ∃ content, store.read file = .ok content ∧
      revise (rule store file) content = .ok (outcome, broken) ∧
      next.get? (store.resolve file) = some outcome.content := by
  cases step with
  | spared _ _ unasked =>
      rw [triggers] at unasked
      cases unasked
  | stored source revised _ written =>
      exact ⟨_, source, revised, Store.get?_of_write_eq_ok written⟩

/-- The text that is written for what is recorded of a file, if any is. -/
def writtenText? (write : Bool) : Except Failure Edit.Outcome → Option Text
  | .ok outcome => if write && outcome.triggersWrite then some outcome.content else none
  | .error _ => none

/-- What a step leaves for its file is what is written for its record, or else the old text. -/
theorem Step.get?_self (step : Step rule write store file result broken next) :
    next.get? (store.resolve file) =
      (writtenText? write result).or (store.get? (store.resolve file)) := by
  cases step with
  | unread => rfl
  | refused => rfl
  | spared _ _ unasked =>
      rw [writtenText?, unasked]
      rfl
  | stored _ _ asked written =>
      rw [writtenText?, asked]
      exact Store.get?_of_write_eq_ok written
  | unstored _ _ _ stopped =>
      rw [Store.eq_of_write_eq_error stopped]
      rfl

/-- The edits of a step are counted as often as they are made. -/
theorem Step.balanced {outcome : Edit.Outcome}
    (step : Step rule write store file (.ok outcome) broken next) : outcome.Balanced := by
  rcases step.revised_of_ok with ⟨content, _, revised⟩
  rcases revise_eq_ok_iff.mp revised with ⟨replacements, _, rfl⟩
  exact Edit.balanced_apply _ content replacements

/-! ## Runs -/

theorem alike_processFiles (rule : Rule Store) (write : Bool) (store : Store)
    (files : List Text) : Store.Alike store (processFiles rule write store files).2 :=
  storeFrame.alike_processFiles rule write store files

/-- A run leaves every key as it is that none of its files stands for. -/
theorem get?_processFiles (rule : Rule Store) (write : Bool) {store : Store} {files : List Text}
    {key : Text} (absent : ∀ file ∈ files, store.resolve file ≠ key) :
    (processFiles rule write store files).2.get? key = store.get? key :=
  storeFrame.cell_processFiles rule write absent

section Distinct

variable {files before after : List Text} (distinct : (files.map store.resolve).Nodup)
  (split : files = before ++ file :: after)

include distinct split

/-- When its turn comes a file is still stored as it was at first. -/
theorem get?_before : (processFiles rule write store before).2.get? (store.resolve file) =
    store.get? (store.resolve file) :=
  storeFrame.cell_before rule write distinct split

theorem get?_after : (processFiles rule write store files).2.get? (store.resolve file) =
    (processFile (processFiles rule write store before).2 rule write file).2.get?
      (store.resolve file) :=
  storeFrame.cell_after rule write distinct split

theorem read_before :
    (processFiles rule write store before).2.read file = store.read file :=
  storeFrame.read_before rule write distinct split

end Distinct

/-! ## The accounts of a run -/

structure Accounts (rule : Rule Store) (write : Bool) (store : Store) (files : List Text)
    (summary : Summary) (final : Store) : Prop where
  /-- Every file is processed or has failed. -/
  processed : summary.processed + summary.failures.length = summary.total
  /-- Every file counts. -/
  total : summary.total = files.length
  /-- The modified files are listed in order. -/
  modified : summary.modified.Sublist files
  /-- The failed files are listed in order. -/
  failed : (summary.failures.map (·.1)).Sublist files
  /-- No file is both modified and failed. -/
  apart : List.Disjoint summary.modified (summary.failures.map (·.1))
  /-- As many links are revised as edits are made. -/
  revised : summary.revised = summary.applied
  /-- The counts by kind sum up to the edits made. -/
  applied : summary.applied = summary.tally.total
  /-- Each file is read as it was stored at first; the lists say how the work on it ended, and
  what the work has left for it is stored in the end. -/
  each : ∀ before file after, files = before ++ file :: after →
    (processFiles rule write store before).2.read file = store.read file ∧
      ∃ result broken next,
        Step rule write (processFiles rule write store before).2 file result broken next ∧
        (file ∈ summary.modified ↔
          ∃ outcome, result = .ok outcome ∧ outcome.triggersWrite = true) ∧
        (∀ failure, (file, failure) ∈ summary.failures ↔ result = .error failure) ∧
        final.get? (store.resolve file) = next.get? (store.resolve file)
  /-- If writing is wanted, the modified files end up with their revised text. -/
  stored : write = true → ∀ file ∈ summary.modified, ∃ before after content outcome broken,
    files = before ++ file :: after ∧ store.read file = .ok content ∧
      revise (rule (processFiles rule write store before).2 file) content =
        .ok (outcome, broken) ∧
      final.get? (store.resolve file) = some outcome.content
  /-- Nothing else is changed. -/
  others : ∀ key, key ∉ summary.modified.map store.resolve → final.get? key = store.get? key
  /-- If writing is not wanted, nothing at all is changed. -/
  dry : write = false → final = store

/-- A file that stands for its key alone is recorded once. -/
theorem record_of_split {files before after : List Text}
    (distinct : (files.map store.resolve).Nodup) (split : files = before ++ file :: after)
    {record : FileRecord} (member : record ∈ (processFiles rule write store files).1)
    (same : record.file = file) :
    record = (processFile (processFiles rule write store before).2 rule write file).1 := by
  refine List.inj_on_of_nodup_map ?_ member (mem_processFiles_iff.mpr ⟨_, _, _, split, rfl⟩)
    (same.trans (file_processFile _ rule write file).symm)
  rw [map_file_processFiles]
  exact List.Nodup.of_map _ distinct

/-- How the work on a file is recorded to have ended is how its own step ends. -/
theorem recorded_iff_of_split {files before after : List Text}
    (distinct : (files.map store.resolve).Nodup) (split : files = before ++ file :: after)
    (Ends : Except Failure Edit.Outcome → Prop) :
    (∃ record ∈ (processFiles rule write store files).1,
        record.file = file ∧ Ends record.result) ↔
      Ends (processFile (processFiles rule write store before).2 rule write file).1.result := by
  constructor
  · rintro ⟨record, member, same, ended⟩
    rw [record_of_split distinct split member same] at ended
    exact ended
  · intro ended
    exact ⟨_, mem_processFiles_iff.mpr ⟨_, _, _, split, rfl⟩, file_processFile _ _ _ _, ended⟩

/-- Whether a file is listed as modified is a matter of its own step. -/
theorem mem_modified_iff_of_split {files before after : List Text}
    (distinct : (files.map store.resolve).Nodup) (split : files = before ++ file :: after) :
    file ∈ (summarize (processFiles rule write store files).1).modified ↔
      ∃ outcome, (processFile (processFiles rule write store before).2 rule write file).1.result =
        .ok outcome ∧ outcome.triggersWrite = true :=
  mem_modified_iff.trans (recorded_iff_of_split distinct split fun result =>
    ∃ outcome, result = .ok outcome ∧ outcome.triggersWrite = true)

/-- Whether a file is listed with a failure is a matter of its own step. -/
theorem mem_failures_iff_of_split {files before after : List Text}
    (distinct : (files.map store.resolve).Nodup) (split : files = before ++ file :: after)
    (failure : Failure) :
    (file, failure) ∈ (summarize (processFiles rule write store files).1).failures ↔
      (processFile (processFiles rule write store before).2 rule write file).1.result =
        .error failure :=
  mem_failures_iff.trans
    (recorded_iff_of_split distinct split fun result => result = .error failure)

theorem stored_of_mem_modified {files : List Text} (distinct : (files.map store.resolve).Nodup)
    (modified : file ∈ (summarize (processFiles rule true store files).1).modified) :
    ∃ before after content outcome broken, files = before ++ file :: after ∧
      store.read file = .ok content ∧
      revise (rule (processFiles rule true store before).2 file) content =
        .ok (outcome, broken) ∧
      (processFiles rule true store files).2.get? (store.resolve file) = some outcome.content := by
  rcases mem_modified_iff.mp modified with ⟨record, member, same, outcome, made, triggers⟩
  rcases mem_processFiles_iff.mp member with ⟨before, other, after, split, recorded⟩
  have named : other = file := by
    rw [← same, recorded, file_processFile]
  subst named
  have step := step_processFile rule true (processFiles rule true store before).2 other
  rw [← recorded, made] at step
  rcases step.stored_of_modified triggers with ⟨content, source, revised, kept⟩
  rw [read_before distinct split] at source
  rw [(alike_processFiles rule true store before).resolve] at kept
  exact ⟨before, after, content, outcome, _, split, source, revised,
    (get?_after distinct split).trans kept⟩

theorem get?_of_not_mem_modified {files : List Text} {key : Text}
    (distinct : (files.map store.resolve).Nodup)
    (absent : key ∉ (summarize (processFiles rule write store files).1).modified.map
      store.resolve) :
    (processFiles rule write store files).2.get? key = store.get? key := by
  by_cases held : ∃ file ∈ files, store.resolve file = key
  · rcases held with ⟨file, member, rfl⟩
    rcases List.mem_iff_append.mp member with ⟨before, after, split⟩
    have unmodified : file ∉ (summarize (processFiles rule write store files).1).modified :=
      fun modified => absent (List.mem_map_of_mem modified)
    rw [mem_modified_iff_of_split distinct split] at unmodified
    have step := step_processFile rule write (processFiles rule write store before).2 file
    rw [get?_after distinct split, step.eq_of_not_modified, get?_before distinct split]
    intro outcome made
    exact Bool.eq_false_iff.mpr fun triggers => unmodified ⟨outcome, made, triggers⟩
  · exact get?_processFiles rule write fun file member same => held ⟨file, member, same⟩

/-- A run over files of a store, no two of which stand for the same key, keeps its accounts,
whatever the rule, and whichever files fail. -/
theorem processFiles_accounts (rule : Rule Store) (write : Bool) (store : Store)
    (files : List Text) (distinct : (files.map store.resolve).Nodup) :
    Accounts rule write store files (summarize (processFiles rule write store files).1)
      (processFiles rule write store files).2 := by
  have listed := map_file_processFiles rule write store files
  have edits : (summarize (processFiles rule write store files).1).revised =
        (summarize (processFiles rule write store files).1).applied ∧
      (summarize (processFiles rule write store files).1).applied =
        (summarize (processFiles rule write store files).1).tally.total := by
    apply revised_eq_applied
    intro record member outcome made
    rcases mem_processFiles_iff.mp member with ⟨before, file, _, _, same⟩
    have step := step_processFile rule write (processFiles rule write store before).2 file
    rw [← same, made] at step
    exact step.balanced
  constructor
  case processed => exact processed_add_failures _
  case total => exact (List.length_map _).symm.trans (congrArg List.length listed)
  case modified =>
    have ordered := modified_sublist (processFiles rule write store files).1
    rw [listed] at ordered
    exact ordered
  case failed =>
    have ordered := failed_sublist (processFiles rule write store files).1
    rw [listed] at ordered
    exact ordered
  case apart =>
    apply modified_disjoint_failed
    rw [listed]
    exact List.Nodup.of_map _ distinct
  case revised => exact edits.1
  case applied => exact edits.2
  case each =>
    intro before file after split
    exact ⟨read_before distinct split, _, _, _, step_processFile _ _ _ _,
      mem_modified_iff_of_split distinct split, mem_failures_iff_of_split distinct split,
      get?_after distinct split⟩
  case stored =>
    intro asked file modified
    subst asked
    exact stored_of_mem_modified distinct modified
  case others => exact fun key absent => get?_of_not_mem_modified distinct absent
  case dry =>
    intro unasked
    rw [unasked]
    exact processFiles_dry rule store files

/-- A file that is revised, one that must not be written and one that is missing. -/
theorem processFiles_accounts_denied :
    let store := Store.ofFiles "/"
      [("/a.md", "[x](old/x.md)"), ("/b.md", "[y](old/y.md)")] ["/b.md"]
    let files : List Text := ["/a.md", "/b.md", "/c.md"]
    let run := processFiles (substituting "old/" "new/" []) true store files
    Accounts (substituting "old/" "new/" []) true store files (summarize run.1) run.2 ∧
      (summarize run.1).modified = ["/a.md"] ∧
      (summarize run.1).failures.map (·.1) = ["/b.md", "/c.md"] :=
  ⟨processFiles_accounts _ _ _ _ (by decide +kernel), by decide +kernel, by decide +kernel⟩

end Batch
end Crosslink

import Crosslink.Proofs.Edit.Tally
import Crosslink.Revision.Batch
import Mathlib.Data.List.Nodup

namespace Crosslink
namespace Batch

/-!
The totals of a run, read off what is recorded of its files.  Every record counts as processed
or as failed; the order of the records matters to the lists of files only.
-/

variable {records : List FileRecord}

/-! ## Files that were processed, modified or failed -/

theorem outcome?_eq_some_iff {record : FileRecord} {outcome : Edit.Outcome} :
    record.outcome? = some outcome ↔ record.result = .ok outcome := by
  unfold FileRecord.outcome?
  split
  · next made =>
      rw [made]
      exact ⟨fun same => congrArg Except.ok (Option.some.inj same),
        fun same => congrArg some (Except.ok.inj same)⟩
  · next made =>
      rw [made]
      constructor
      · intro impossible
        cases impossible
      · intro impossible
        cases impossible

theorem failure?_eq_some_iff {record : FileRecord} {file : Text} {failure : Failure} :
    record.failure? = some (file, failure) ↔
      record.file = file ∧ record.result = .error failure := by
  unfold FileRecord.failure?
  split
  · next made =>
      rw [made]
      constructor
      · intro impossible
        cases impossible
      · rintro ⟨_, impossible⟩
        cases impossible
  · next made =>
      rw [made]
      constructor
      · intro same
        cases same
        exact ⟨rfl, rfl⟩
      · rintro ⟨sameFile, sameFailure⟩
        rw [sameFile, Except.error.inj sameFailure]

theorem isModified_iff {record : FileRecord} :
    record.isModified = true ↔
      ∃ outcome, record.result = .ok outcome ∧ outcome.triggersWrite = true := by
  unfold FileRecord.isModified
  split
  · next outcome made =>
      rw [made]
      constructor
      · exact fun triggers => ⟨outcome, rfl, triggers⟩
      · rintro ⟨_, same, triggers⟩
        cases same
        exact triggers
  · next made =>
      rw [made]
      constructor
      · intro impossible
        cases impossible
      · rintro ⟨_, impossible, _⟩
        cases impossible

theorem mem_modified_iff {file : Text} :
    file ∈ (summarize records).modified ↔
      ∃ record ∈ records, record.file = file ∧
        ∃ outcome, record.result = .ok outcome ∧ outcome.triggersWrite = true := by
  rw [summarize, List.mem_map]
  constructor
  · rintro ⟨record, member, same⟩
    have parts := List.mem_filter.mp member
    exact ⟨record, parts.1, same, isModified_iff.mp parts.2⟩
  · rintro ⟨record, member, same, modified⟩
    exact ⟨record, List.mem_filter.mpr ⟨member, isModified_iff.mpr modified⟩, same⟩

theorem mem_failures_iff {file : Text} {failure : Failure} :
    (file, failure) ∈ (summarize records).failures ↔
      ∃ record ∈ records, record.file = file ∧ record.result = .error failure := by
  rw [summarize, List.mem_filterMap]
  constructor
  · rintro ⟨record, member, found⟩
    exact ⟨record, member, failure?_eq_some_iff.mp found⟩
  · rintro ⟨record, member, found⟩
    exact ⟨record, member, failure?_eq_some_iff.mpr found⟩

theorem not_mem_modified_of_failed {file : Text}
    (failed : ∀ record ∈ records, record.file = file → ∃ failure, record.result = .error failure) :
    file ∉ (summarize records).modified := by
  intro modified
  rcases mem_modified_iff.mp modified with ⟨record, listed, named, outcome, made, _⟩
  rcases failed record listed named with ⟨failure, stopped⟩
  cases stopped.symm.trans made

/-- Where nothing is listed as failed, every file came to its end. -/
theorem result_of_unfailed (unfailed : (summarize records).failures = []) {record : FileRecord}
    (member : record ∈ records) : ∃ outcome, record.result = .ok outcome := by
  cases made : record.result with
  | ok outcome => exact ⟨outcome, rfl⟩
  | error failure =>
      have listed : (record.file, failure) ∈ (summarize records).failures :=
        mem_failures_iff.mpr ⟨record, member, rfl, made⟩
      rw [unfailed] at listed
      exact absurd listed List.not_mem_nil

/-- Where nothing is listed as failed or broken, every file came to its end without a broken
link. -/
theorem result_of_clean (unfailed : (summarize records).failures = [])
    (unbroken : (summarize records).broken = []) {record : FileRecord} (member : record ∈ records) :
    ∃ outcome, record.result = .ok outcome ∧ record.broken = [] := by
  rcases result_of_unfailed unfailed member with ⟨outcome, made⟩
  exact ⟨outcome, made, List.flatMap_eq_nil_iff.mp unbroken record member⟩

/-- Where each file is recorded once and its reports name it, the reports that name a file are those
of its record. -/
theorem filter_broken (distinct : (records.map (·.file)).Nodup)
    (named : ∀ record ∈ records, ∀ broken ∈ record.broken, broken.file = record.file)
    {record : FileRecord} (member : record ∈ records) :
    (summarize records).broken.filter (fun broken => broken.file = record.file) =
      record.broken := by
  change (records.flatMap FileRecord.broken).filter _ = _
  rw [List.filter_flatMap]
  induction records with
  | nil => exact absurd member List.not_mem_nil
  | cons first rest inductionHypothesis =>
      rw [List.flatMap_cons]
      have apart := List.nodup_cons.mp distinct
      have own : first.broken.filter (fun broken => broken.file = first.file) = first.broken :=
        List.filter_eq_self.mpr fun broken listed =>
          decide_eq_true (named first List.mem_cons_self broken listed)
      have foreign : ∀ other ∈ first :: rest, other.file ≠ record.file →
          other.broken.filter (fun broken => broken.file = record.file) = [] := by
        intro other among different
        refine List.filter_eq_nil_iff.mpr fun broken listed => ?_
        rw [named other among broken listed, decide_eq_true_eq]
        exact different
      rcases List.mem_cons.mp member with rfl | later
      · rw [own, List.flatMap_eq_nil_iff.mpr fun other among => foreign other (.tail _ among)
          fun same => apart.1 (List.mem_map.mpr ⟨other, among, same⟩), List.append_nil]
      · rw [foreign first List.mem_cons_self fun same =>
            apart.1 (List.mem_map.mpr ⟨record, later, same.symm⟩), List.nil_append]
        exact inductionHypothesis apart.2 (fun other among => named other (.tail first among)) later

theorem processed_add_failures (records : List FileRecord) :
    (summarize records).processed + (summarize records).failures.length =
      (summarize records).total := by
  change (records.filterMap FileRecord.outcome?).length +
    (records.filterMap FileRecord.failure?).length = records.length
  induction records with
  | nil => rfl
  | cons record rest inductionHypothesis =>
      cases made : record.result with
      | ok outcome =>
          have noFailure : record.failure? = none := by rw [FileRecord.failure?, made]
          rw [List.filterMap_cons_some (outcome?_eq_some_iff.mpr made),
            List.filterMap_cons_none noFailure, List.length_cons, List.length_cons]
          omega
      | error failure =>
          have noOutcome : record.outcome? = none := by rw [FileRecord.outcome?, made]
          rw [List.filterMap_cons_none noOutcome,
            List.filterMap_cons_some (failure?_eq_some_iff.mpr ⟨rfl, made⟩), List.length_cons,
            List.length_cons]
          omega

/-- The modified files stand in the order in which they were worked on. -/
theorem modified_sublist (records : List FileRecord) :
    (summarize records).modified.Sublist (records.map (·.file)) :=
  List.filter_sublist.map _

/-- The failed files stand in the order in which they were worked on. -/
theorem failed_sublist (records : List FileRecord) :
    ((summarize records).failures.map (·.1)).Sublist (records.map (·.file)) := by
  simp only [summarize]
  induction records with
  | nil => exact List.Sublist.slnil
  | cons record rest inductionHypothesis =>
      cases made : record.failure? with
      | none =>
          rw [List.filterMap_cons_none made, List.map_cons]
          exact inductionHypothesis.cons _
      | some pair =>
          rcases pair with ⟨file, failure⟩
          rw [List.filterMap_cons_some made, List.map_cons, List.map_cons,
            (failure?_eq_some_iff.mp made).1]
          exact inductionHypothesis.cons_cons _

/-- No file is both modified and failed, if each was worked on once. -/
theorem modified_disjoint_failed (distinct : (records.map (·.file)).Nodup) :
    List.Disjoint (summarize records).modified ((summarize records).failures.map (·.1)) := by
  intro file modified failed
  rcases mem_modified_iff.mp modified with ⟨record, member, sameFile, outcome, made, _⟩
  rcases List.mem_map.mp failed with ⟨⟨_, failure⟩, listed, rfl⟩
  rcases mem_failures_iff.mp listed with ⟨other, otherMember, otherFile, stopped⟩
  have same := List.inj_on_of_nodup_map distinct member otherMember
    (sameFile.trans otherFile.symm)
  rw [same, stopped] at made
  cases made

/-! ## Edits -/

/-- As many links are revised as edits are made, and the counts by kind sum up to them. -/
theorem revised_eq_applied (balanced : ∀ record ∈ records, ∀ outcome,
      record.result = .ok outcome → outcome.Balanced) :
    (summarize records).revised = (summarize records).applied ∧
      (summarize records).applied = (summarize records).tally.total := by
  have each : ∀ outcome ∈ records.filterMap (·.outcome?), outcome.Balanced := by
    intro outcome member
    rcases List.mem_filterMap.mp member with ⟨record, inRecords, found⟩
    exact balanced record inRecords outcome (outcome?_eq_some_iff.mp found)
  simp only [summarize, ← List.sum_eq_foldl_nat]
  generalize records.filterMap (·.outcome?) = outcomes at each
  have counted : outcomes.map (·.tally.total) = outcomes.map (·.applied) :=
    List.map_congr_left each
  rw [counted]
  refine ⟨rfl, ?_⟩
  have merged : ∀ (outcomes : List Edit.Outcome) (tally : Tally),
      (outcomes.foldl (fun tally outcome => tally.merge outcome.tally) tally).total =
        tally.total + (outcomes.map (·.tally.total)).sum := by
    intro outcomes
    induction outcomes with
    | nil => exact fun _ => rfl
    | cons outcome rest inductionHypothesis =>
        intro tally
        rw [List.foldl_cons, inductionHypothesis, Tally.total_merge, List.map_cons, List.sum_cons,
          Nat.add_assoc]
  rw [merged outcomes [], counted]
  exact (Nat.zero_add _).symm

/-! ## The order of the records -/

/-- What the totals say without regard to the order of files. -/
structure Summary.Matches (first second : Summary) : Prop where
  total : first.total = second.total
  processed : first.processed = second.processed
  revised : first.revised = second.revised
  applied : first.applied = second.applied
  tally : first.tally.Same second.tally
  modified : first.modified.Perm second.modified
  failures : first.failures.Perm second.failures
  broken : first.broken.Perm second.broken

/-- Records in another order come to the same totals. -/
theorem summarize_matches {other : List FileRecord} (permuted : records.Perm other) :
    (summarize records).Matches (summarize other) := by
  have outcomes := permuted.filterMap (·.outcome?)
  constructor
  case total => exact permuted.length_eq
  case processed => exact outcomes.length_eq
  case revised =>
    simp only [summarize, ← List.sum_eq_foldl_nat]
    exact (outcomes.map _).sum_nat
  case applied =>
    simp only [summarize, ← List.sum_eq_foldl_nat]
    exact (outcomes.map _).sum_nat
  case tally =>
    simp only [summarize, Tally.foldl_merge]
    exact Tally.Same.merge (fun _ => rfl) (outcomes.flatMap_right _)
  case modified => exact (permuted.filter _).map _
  case failures => exact permuted.filterMap _
  case broken => exact permuted.flatMap_right _

theorem summarize_congr {α : Type} (items : List α) {first second : α → FileRecord}
    (file : ∀ item ∈ items, (first item).file = (second item).file)
    (result : ∀ item ∈ items, (first item).result = (second item).result)
    (broken : ∀ item ∈ items, (first item).broken = (second item).broken) :
    summarize (items.map first) = summarize (items.map second) := by
  have outcomes : (items.map first).filterMap (·.outcome?) =
      (items.map second).filterMap (·.outcome?) := by
    rw [List.filterMap_map, List.filterMap_map]
    refine List.filterMap_congr fun item member => ?_
    simp only [Function.comp, FileRecord.outcome?, result item member]
  have modified : ((items.map first).filter (·.isModified)).map (·.file) =
      ((items.map second).filter (·.isModified)).map (·.file) := by
    rw [List.filter_map, List.filter_map, List.map_map, List.map_map]
    have same : ∀ item ∈ items, ((·.isModified) ∘ first) item = ((·.isModified) ∘ second) item := by
      intro item member
      simp only [Function.comp, FileRecord.isModified, result item member]
    rw [List.filter_congr same]
    exact List.map_congr_left fun item member => file item (List.mem_of_mem_filter member)
  have failures : (items.map first).filterMap (·.failure?) =
      (items.map second).filterMap (·.failure?) := by
    rw [List.filterMap_map, List.filterMap_map]
    refine List.filterMap_congr fun item member => ?_
    simp only [Function.comp, FileRecord.failure?, result item member, file item member]
  have reported : (items.map first).flatMap (·.broken) =
      (items.map second).flatMap (·.broken) := by
    rw [List.flatMap_map, List.flatMap_map]
    exact List.flatMap_congr fun item member => broken item member
  simp only [summarize, outcomes, modified, failures, reported, List.length_map]

/-! ## Leaving a file out -/

theorem filter_failures (records : List FileRecord) (keeps : Text → Bool) :
    (summarize records).failures.filter (fun failed => keeps failed.1) =
      (summarize (records.filter fun record => keeps record.file)).failures := by
  simp only [summarize]
  rw [List.filterMap_filter, List.filter_filterMap]
  refine List.filterMap_congr fun record _ => ?_
  cases found : record.failure? with
  | none => rw [ite_self]; rfl
  | some failed => rw [Option.filter_some, (failure?_eq_some_iff.mp found).1]

/-- The totals without the records of a file with which nothing was done but to fail: the other
files are listed as before, and so is everything that was done with them. -/
theorem summarize_filter {file : Text}
    (idle : ∀ record ∈ records, record.file = file → record.outcome? = none ∧ record.broken = []) :
    summarize (records.filter fun record => record.file ≠ file) =
      { summarize records with
        total := (records.filter fun record => record.file ≠ file).length
        failures := (summarize records).failures.filter fun failed => failed.1 ≠ file } := by
  have outcomes : (records.filter fun record => record.file ≠ file).filterMap (·.outcome?) =
      records.filterMap (·.outcome?) := by
    rw [List.filterMap_filter]
    refine List.filterMap_congr fun record member => ?_
    by_cases same : record.file = file
    · rw [(idle record member same).1, ite_self]
    · rw [decide_eq_true same, if_pos rfl]
  have modified : (records.filter fun record => record.file ≠ file).filter (·.isModified) =
      records.filter (·.isModified) := by
    rw [List.filter_filter]
    refine List.filter_congr fun record member => ?_
    by_cases same : record.file = file
    · have unmodified : record.isModified = false := by
        have none := (idle record member same).1
        unfold FileRecord.outcome? at none
        unfold FileRecord.isModified
        split at none
        · cases none
        · rfl
      rw [unmodified, Bool.false_and]
    · rw [decide_eq_true same, Bool.and_true]
  have failures := filter_failures records fun name => decide (name ≠ file)
  have broken : (records.filter fun record => record.file ≠ file).flatMap (·.broken) =
      records.flatMap (·.broken) := by
    clear outcomes modified failures
    induction records with
    | nil => rfl
    | cons record rest inductionHypothesis =>
        have later := inductionHypothesis fun other among =>
          idle other (List.mem_cons_of_mem record among)
        by_cases same : record.file = file
        · rw [List.filter_cons_of_neg (by rw [decide_eq_true_eq]; exact not_not_intro same), later,
            List.flatMap_cons, (idle record List.mem_cons_self same).2, List.nil_append]
        · rw [List.filter_cons, if_pos (decide_eq_true same), List.flatMap_cons, List.flatMap_cons,
            later]
  rw [failures]
  simp only [summarize, outcomes, modified, broken]

end Batch
end Crosslink

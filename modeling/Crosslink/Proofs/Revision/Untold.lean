import Crosslink.Proofs.Revision.Classes
import Crosslink.Proofs.Revision.Losses
import Crosslink.Proofs.Revision.Tree

namespace Crosslink

/-!
Files that cannot be read.  All that a run tells of such a file is why it could not be read: it is
not listed as modified, no broken link is reported for it, and it is left as it is.
-/

namespace Batch

variable {rule : Rule Shelf} {write : Bool} {shelf : Shelf} {files : List Text} {file : Text}
variable {failure : Failure}

theorem processFile_unread {σ : Type} [Files σ] {files : σ} {rule : Rule σ}
    (unread : Files.read files file = .error failure) :
    processFile files rule write file = (FileRecord.failed file none [] [] failure, files) := by
  rw [processFile, unread]

theorem file_of_mem_broken {σ : Type} [Files σ] {files : σ} {cwd : Text} {rules : Rules}
    {broken : BrokenLink}
    (member : broken ∈ (processFile files (checking cwd rules) write file).1.broken) :
    broken.file = file := by
  have revised : ∀ {content outcome reported}, revise (checking cwd rules files file) content =
      .ok (outcome, reported) → broken ∈ reported → broken.file = file := by
    intro content outcome reported revised listed
    rcases revise_eq_ok_iff.mp revised with ⟨replacements, made, _⟩
    rw [← (Generation.result_eq_ok made).2] at listed
    rcases Generation.exists_of_mem_broken listed with ⟨link, _, treatment, treated, found⟩
    rcases Check.classified_of_treat treated with ⟨cls, _, emits⟩
    cases cls with
    | skipped | sound => cases emits.2.symm.trans found
    | repairable => cases emits.1.symm.trans found
    | lost =>
        rcases emits.2 with ⟨_, reported, names, _⟩
        cases reported.symm.trans found
        exact names
  have step := step_processFile (checking cwd rules) write files file
  generalize (processFile files (checking cwd rules) write file).1.result = result,
    (processFile files (checking cwd rules) write file).1.broken = reported,
    (processFile files (checking cwd rules) write file).2 = next at step member
  cases step with
  | unread => exact absurd member List.not_mem_nil
  | refused => exact absurd member List.not_mem_nil
  | spared _ made _ => exact revised made member
  | stored _ made _ _ => exact revised made member
  | unstored _ made _ _ => exact revised made member

/-- The failure of the work on one file of a run is listed. -/
theorem mem_failures_of_result (steady : Steady rule)
    (distinct : (files.map shelf.disk.place).Nodup) (member : file ∈ files)
    (stopped : (processFile shelf rule write file).1.result = .error failure) :
    (file, failure) ∈ (summarize (processFiles rule write shelf files).1).failures := by
  rw [shelfFrame.processFiles_fst steady distinct]
  exact mem_failures_iff.mpr ⟨_, List.mem_map_of_mem member, file_processFile _ _ _ _, stopped⟩

section Unread

variable (steady : Steady rule) (distinct : (files.map shelf.disk.place).Nodup)
  (member : file ∈ files) (unread : shelf.read file = .error failure)

include unread

theorem result_unread : (processFile shelf rule write file).1 =
    FileRecord.failed file none [] [] failure :=
  congrArg Prod.fst (processFile_unread unread)

include steady distinct

theorem record_unread {record : FileRecord}
    (listed : record ∈ (processFiles rule write shelf files).1) (named : record.file = file) :
    record = FileRecord.failed file none [] [] failure :=
  (shelfFrame.record_eq steady distinct listed named).trans (result_unread unread)

theorem not_mem_modified_unread :
    file ∉ (summarize (processFiles rule write shelf files).1).modified := by
  refine not_mem_modified_of_failed fun record listed named => ⟨failure, ?_⟩
  rw [record_unread steady distinct unread listed named]
  rfl

include member

theorem mem_failures_unread :
    (file, failure) ∈ (summarize (processFiles rule write shelf files).1).failures :=
  mem_failures_of_result steady distinct member (by rw [result_unread unread]; rfl)

omit steady in
theorem read_unread : (processFiles rule write shelf files).2.read file = .error failure := by
  rcases List.mem_iff_append.mp member with ⟨before, after, split⟩
  have still : Files.read (processFiles rule write shelf before).2 file = .error failure :=
    (shelfFrame.read_before rule write distinct split).trans unread
  refine (shelfFrame.read_after rule write distinct split).trans ?_
  rw [processFile_unread still]
  exact still

end Unread

theorem file_ne_of_mem_broken {cwd : Text} {rules : Rules} {broken : BrokenLink}
    (distinct : (files.map shelf.disk.place).Nodup) (unread : shelf.read file = .error failure)
    (reported : broken ∈
      (summarize (processFiles (checking cwd rules) write shelf files).1).broken) :
    broken.file ≠ file := by
  have steady : Steady (checking cwd rules : Rule Shelf) := Task.steady_rule cwd (.checking rules)
  intro named
  rcases List.mem_flatMap.mp reported with ⟨record, listed, among⟩
  have recorded := listed
  rw [shelfFrame.processFiles_fst steady distinct] at recorded
  rcases List.mem_map.mp recorded with ⟨other, _, rfl⟩
  have ofOther : broken.file = other := file_of_mem_broken among
  rw [record_unread steady distinct unread listed
    ((file_processFile _ _ _ _).trans (ofOther.symm.trans named))] at among
  exact absurd among List.not_mem_nil

end Batch

/-!
## Links that hide each other

A check of a tree reports all lost links of a file if it can be told of every path that it asks for
whether it is there.  It cannot be told of a path that is too long, or that leads into a name that
is too long.  The check of a file stops at the first link that asks for such a path, and what was
found of the other links is dropped: the file is listed as failed, and not one of its links is
reported.
-/

namespace Generation

variable {treat : Link → Except Failure Treatment}

/-- Where a rule reports each link of some sort in the same way, and no other link, its reports are
those of the links of that sort, in their order. -/
theorem broken_of_result {counts : Link → Bool} {say : Link → BrokenLink}
    (once : ∀ link treatment, treat link = .ok treatment →
      treatment.broken? = if counts link then some (say link) else none)
    {links : List Link} {replacements : List Replacement} {broken : List BrokenLink}
    (made : (ofLinks treat links).result = .ok (replacements, broken)) :
    broken = (links.filter counts).map say := by
  induction links generalizing replacements broken with
  | nil =>
      cases made
      rfl
  | cons link rest inductionHypothesis =>
      rcases result_ofLinks_cons_eq_ok made with ⟨treatment, _, reported, treated, later, _, rfl⟩
      rw [inductionHypothesis later, once link treatment treated]
      cases counted : counts link with
      | true =>
          rw [List.filter_cons_of_pos counted, if_pos rfl]
          rfl
      | false =>
          rw [List.filter_cons_of_neg (Bool.eq_false_iff.mp counted), if_neg Bool.false_ne_true]
          rfl

end Generation

namespace Check

section

variable (present : Text → Except Failure Bool) (cwd : Text) (rules : Rules) (file : Text)

/-- The link may be touched, its target is missing, and so is that of every variant. -/
def isLost (href : Text) : Bool :=
  isMissing present cwd rules file href &&
    match Variant.find? present cwd rules file href with
    | .ok none => true
    | _ => false

end

/-- What is reported of a lost link. -/
def brokenLink (file : Text) (lines : List Text) (link : Link) : BrokenLink where
  file
  lineNumber := link.line
  line := lineOf lines link.line

variable {present : Text → Except Failure Bool} {cwd file href : Text} {rules : Rules}
variable {lines : List Text} {link : Link} {treatment : Treatment}

theorem isLost_iff :
    isLost present cwd rules file href = true ↔ Falls present cwd rules file href .lost := by
  rw [isLost, Bool.and_eq_true]
  constructor
  · rintro ⟨missing, none⟩
    cases unskipped : Href.isSkipped rules.exclusions href with
    | true =>
        rw [isMissing, unskipped] at missing
        cases missing
    | false =>
        refine ⟨unskipped, ⟨_, path?_withoutAnchor cwd file unskipped, ?_⟩, ?_⟩
        · rw [isMissing, unskipped, Bool.not_false, Bool.true_and] at missing
          split at missing
          · next there asked =>
              rw [Bool.not_eq_true'] at missing
              exact asked.trans (congrArg Except.ok missing)
          · cases missing
        · split at none
          · next searched => exact searched
          · cases none
  · rintro ⟨unskipped, ⟨target, led, missing⟩, none⟩
    rw [isMissing_eq unskipped led missing, none]
    exact ⟨rfl, rfl⟩

theorem broken?_of_treat (treated : treat present cwd rules file lines link = .ok treatment) :
    treatment.broken? =
      if isLost present cwd rules file link.href then some (brokenLink file lines link)
      else none := by
  rcases classified_of_treat treated with ⟨cls, falls, emits⟩
  by_cases lost : cls = .lost
  · rw [lost] at falls
    cases treated.symm.trans (treat_of_lost lines falls)
    rw [if_pos (isLost_iff.mpr falls)]
    rfl
  · rw [if_neg fun found => lost (falls.unique (isLost_iff.mp found))]
    cases cls with
    | skipped => exact emits.2
    | sound => exact emits.2
    | repairable => exact emits.1
    | lost => exact absurd rfl lost

end Check

namespace Batch

def reportsOf (file : Text) (summary : Summary) : List BrokenLink :=
  summary.broken.filter fun broken => broken.file = file

section

variable {σ : Type} [Files σ] {files : σ} {rule : Rule σ} {file content : Text}
variable (write : Bool) (source : Files.read files file = .ok content)

include source

/-- What a rule reports is recorded, whether the file is written or not. -/
theorem broken_processFile {replacements : List Replacement} {broken : List BrokenLink}
    (made : (rule files file (extractLinks content) content.splitLines).result =
      .ok (replacements, broken)) : (processFile files rule write file).1.broken = broken := by
  simp only [processFile, source, finishFile, made]
  split
  · split <;> rfl
  · rfl

theorem refused_processFile {failure : Failure}
    (stopped : (rule files file (extractLinks content) content.splitLines).result =
      .error failure) :
    (processFile files rule write file).1.broken = [] ∧
      (processFile files rule write file).1.result = .error failure := by
  rcases exists_processFile_refused write source stopped with ⟨_, _, refused⟩
  rw [refused]
  exact ⟨rfl, rfl⟩

end

variable {disk : Disk} {file content : Text}

/-- The reports of a run over a tree that name a file are those of the work on that file alone. -/
theorem reportsOf_of_mem {shelf : Shelf} {files : List Text} (cwd : Text) (rules : Rules)
    (write : Bool) (distinct : (files.map shelf.disk.place).Nodup) (member : file ∈ files) :
    reportsOf file (summarize (processFiles (checking cwd rules) write shelf files).1) =
      (processFile shelf (checking cwd rules) write file).1.broken := by
  have recorded : (processFiles (checking cwd rules) write shelf files).1 =
      files.map fun file => (processFile shelf (checking cwd rules) write file).1 :=
    shelfFrame.processFiles_fst (Task.steady_rule cwd (.checking rules)) distinct
  have listed : (processFile shelf (checking cwd rules) write file).1 ∈
      (processFiles (checking cwd rules) write shelf files).1 :=
    recorded ▸ List.mem_map_of_mem member
  have own := filter_broken ?distinct ?named listed
  case distinct =>
    rw [map_file_processFiles]
    exact List.Nodup.of_map _ distinct
  case named =>
    intro record among broken reported
    rw [recorded] at among
    rcases List.mem_map.mp among with ⟨other, _, rfl⟩
    rw [file_of_mem_broken reported, file_processFile]
  rw [file_processFile] at own
  exact own

/-- What a check of a tree has to say of a file.  If each of its links falls in a class, the lost ones
are reported, in their order.  If one does not, none is reported, and the file fails for a path that
is too long. -/
theorem reports_of_link_classes (cwd : Text) (rules : Rules) (write : Bool)
    (source : (Shelf.ofDisk disk).read file = .ok content) :
    let record := (processFile (Shelf.ofDisk disk) (checking cwd rules) write file).1
    let links := extractLinks content
    let Told (link : Link) := ∃ cls, Check.Falls disk.present cwd rules file link.href cls
    ((∀ link ∈ links, Told link) →
        record.broken =
          (links.filter fun link => Check.isLost disk.present cwd rules file link.href).map
            (Check.brokenLink file content.splitLines)) ∧
      ((∃ link ∈ links, ¬ Told link) →
        record.broken = [] ∧ ∃ link ∈ links, ∃ place ∈ Check.questions cwd rules file link.href,
          record.result = .error (.nameTooLong (Path.tidy place))) := by
  intro record links Told
  cases made : (checking cwd rules (Shelf.ofDisk disk) file links content.splitLines).result with
  | ok pair =>
      have treated : ∀ link ∈ links, Told link := by
        intro link member
        rcases Generation.treatment_of_mem made member with ⟨_, treated, _⟩
        exact Check.exists_falls_of_treat treated
      refine ⟨fun _ => ?_, fun ⟨link, member, untold⟩ => absurd (treated link member) untold⟩
      rw [broken_processFile write source made]
      exact Generation.broken_of_result (fun _ _ => Check.broken?_of_treat) made
  | error failure =>
      rcases Generation.exists_of_result_eq_error made with ⟨link, member, untreated⟩
      rcases Check.exists_question_of_treat untreated with ⟨place, asked, untold⟩
      have refused := refused_processFile write source made
      constructor
      · intro told
        rcases told link member with ⟨cls, falls⟩
        rcases Check.exists_treat content.splitLines falls with ⟨treatment, treated, _⟩
        cases untreated.symm.trans treated
      · intro _
        rw [Disk.nameTooLong_of_present untold] at refused
        exact ⟨refused.1, link, member, place, asked, refused.2⟩

/-- What a check of a tree reports of a file that can be read.  The lost links are reported, all of
them and no others, if it can be told of each link of the file whether it is lost.  If it cannot be
told of one of them, none is reported, and the file is listed as failed for a path that is too long.
It can be told of links that ask for short paths only. -/
theorem checking_reports_lost (disk : Disk) (proper : disk.Proper) (cwd : Text) (rules : Rules)
    (write : Bool) (path : Text) (records : List FileRecord)
    (ran : (processPath (Shelf.ofDisk disk) (checking cwd rules) write path).1 = .ok records) :
    ∃ found, Files.collect (Shelf.ofDisk disk) path = .ok found ∧
      ∀ file ∈ found, ∀ content, (Shelf.ofDisk disk).read file = .ok content →
        let summary := summarize records
        let links := extractLinks content
        let Told (link : Link) := ∃ cls, Check.Falls disk.present cwd rules file link.href cls
        ((∀ link ∈ links, Told link) →
            reportsOf file summary =
              (links.filter fun link => Check.isLost disk.present cwd rules file link.href).map
                (Check.brokenLink file content.splitLines)) ∧
          ((∃ link ∈ links, ¬ Told link) →
            reportsOf file summary = [] ∧
              ∃ link ∈ links, ∃ place ∈ Check.questions cwd rules file link.href,
                (file, .nameTooLong (Path.tidy place)) ∈ summary.failures) ∧
          ∀ link ∈ links, (∀ place ∈ Check.questions cwd rules file link.href, disk.Short place) →
            Told link := by
  unfold processPath at ran
  split at ran
  · cases ran
  · next found collected =>
      have distinct := (Shelf.layout (Shelf.ofDisk disk) proper).collect collected
      cases ran
      refine ⟨found, collected, fun file member content source => ?_⟩
      rcases reports_of_link_classes cwd rules write source with ⟨reported, hidden⟩
      have own := reportsOf_of_mem cwd rules write distinct member
      refine ⟨fun told => own.trans (reported told), fun untold => ?_, fun link _ short => ?_⟩
      · rcases hidden untold with ⟨none, link, among, place, asked, failed⟩
        refine ⟨own.trans none, link, among, place, asked, ?_⟩
        exact mem_failures_of_result (Task.steady_rule cwd (.checking rules)) distinct member failed
      · exact Check.exists_falls_of_told fun place asked => (short place asked).exists_present

/-- Two files with the same lost link.  In one of them stands a link with a name of 256 bytes, and
the lost link is not reported. -/
theorem checking_reports_lost_long :
    let long : Text := List.replicate 64 '𝄞'
    let lost : Text := "[x](no.md)\n"
    let disk := Disk.empty { cwd := "/w", home := "/h" }
      |>.plant "/w/a.md" (Utf8.encode (lost ++ ("[y](" : Text) ++ long ++ (")\n" : Text)))
      |>.plant "/w/b.md" (Utf8.encode lost)
    let rules : Rules := { folders := [], root := "/w", exclusions := [] }
    let run := processPath (Shelf.ofDisk disk) (checking "/w" rules) false "/w"
    disk.Proper ∧ ∃ records, run.1 = .ok records ∧
      (reportsOf "/w/a.md" (summarize records) = [] ∧ ∃ place,
        (("/w/a.md" : Text), Failure.nameTooLong place) ∈ (summarize records).failures) ∧
      reportsOf "/w/b.md" (summarize records) =
        [{ file := "/w/b.md", lineNumber := 1, line := "[x](no.md)" }] := by
  intro long lost disk rules run
  have proper : disk.Proper := by decide +kernel
  have collected : Files.collect (Shelf.ofDisk disk) "/w" = .ok ["/w/a.md", "/w/b.md"] := by
    decide +kernel
  have ran : run.1 = .ok (processFiles (checking "/w" rules) false (Shelf.ofDisk disk)
      ["/w/a.md", "/w/b.md"]).1 := by
    rw [show run = processPath _ _ _ _ from rfl, processPath, collected]
  rcases checking_reports_lost disk proper "/w" rules false "/w" _ ran with
    ⟨found, again, each⟩
  cases collected.symm.trans again
  refine ⟨proper, _, ran, ?_, ?_⟩
  · have source : (Shelf.ofDisk disk).read "/w/a.md" =
        .ok (lost ++ ("[y](" : Text) ++ long ++ (")\n" : Text)) := by decide +kernel
    let link : Link := { href := long, text := "y", line := 2, start? := some 15, stop? := some 79 }
    have untold : ¬ ∃ cls, Check.Falls disk.present "/w" rules "/w/a.md" link.href cls := by
      rintro ⟨cls, falls⟩
      rcases Check.exists_treat [] falls with ⟨_, treated, _⟩
      have stopped : Check.treat disk.present "/w" rules "/w/a.md" [] link =
          .error (.nameTooLong (("/w/" : Text) ++ long)) := by decide +kernel
      cases stopped.symm.trans treated
    rcases (each _ List.mem_cons_self _ source).2.1 ⟨link, by decide +kernel, untold⟩ with
      ⟨none, _, _, place, _, failed⟩
    exact ⟨none, _, failed⟩
  · have source : (Shelf.ofDisk disk).read "/w/b.md" = .ok lost := by decide +kernel
    let link : Link := { href := "no.md", text := "x", line := 1, start? := some 4, stop? := some 9 }
    have links : extractLinks lost = [link] := by decide +kernel
    refine ((each _ (.tail _ List.mem_cons_self) _ source).1 fun other among => ?_).trans ?_
    · rw [links] at among
      rw [List.mem_singleton.mp among]
      exact ⟨.lost, Check.isLost_iff.mp (by decide +kernel)⟩
    · rw [links]
      decide +kernel

end Batch

end Crosslink

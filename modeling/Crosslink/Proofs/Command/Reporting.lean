import Crosslink.Command.Call
import Crosslink.Proofs.Files.Extent
import Crosslink.Proofs.Link.Survey
import Crosslink.Proofs.Report.Validation
import Crosslink.Proofs.Revision.Untold
import Crosslink.Terminal.Session

namespace Crosslink

/-!
What a command tells.  A command about links that is given a path that is there comes to a report
that can be shown, and lays every file that it could not read to that file alone; only the telling
of a style ends without a report, with what stopped the reading of a file.
-/

namespace Report

def items (report : Report) (name : Text) : List Value :=
  match Value.lookup? name report.output with
  | some (.list items) => items
  | _ => []

/-- The report says something, and it is taken over as it is for a report of the command. -/
structure Presentable (report : Report) (command : Command) : Prop where
  result : report.result ≠ []
  output : report.output ≠ []
  accepted : Report.validate (Exit.scope command).1 (Exit.scope command).2 report.output =
    .ok report.output

/-- The report tells of a file that it could not be read, and why, and nothing else. -/
structure Blames (report : Report) (file : Text) (failure : Failure) : Prop where
  /-- What went wrong ends a line of the errors. -/
  named : ∃ line, .text line ∈ report.items "errors" ∧ failure.message <:+ line
  unsuccessful : report.success = false
  /-- The file is not listed as modified. -/
  unmodified : .text file ∉ report.items "modified_files"
  /-- No link is listed as one of the file. -/
  unlisted : ∀ fields, .record fields ∈ report.items "links" ++ report.items "broken_links" →
    Value.lookup? "file_path" fields ≠ some (.text file) ∧
      Value.lookup? "file" fields ≠ some (.text file)

end Report

namespace TreeRevision

variable {revision : TreeRevision} {command : Command} {disk : Disk} {target : Text} {rules : Rules}
variable {file : Text} {failure : Failure}

/-- A run over the files that a path names comes to a report if only something that is missing
keeps it from finding them. -/
theorem ending_runOver (revision : TreeRevision) (rules : Rules)
    (absence : ∀ failure, Files.collect (Shelf.ofDisk disk) target = .error failure →
      failure.isAbsence = true) :
    (∃ error result, (revision.runOver disk target rules).ending =
        .ok (revision.refusal target error result) ∧ result ≠ [] ∧
      ∃ failure, Files.collect (Shelf.ofDisk disk) target = .error failure) ∨
    ∃ found, Files.collect (Shelf.ofDisk disk) target = .ok found ∧
      let result :=
        Batch.processFiles (revision.rule rules) revision.write (Shelf.ofDisk disk) found
      (revision.runOver disk target rules).ending =
        .ok (revision.summary target (Batch.summarize result.1)) ∧
      (revision.runOver disk target rules).disk = result.2.disk := by
  unfold runOver Batch.processPath
  cases collected : Files.collect (Shelf.ofDisk disk) target with
  | error failure =>
      left
      dsimp only [Run.ofEnding]
      rw [if_pos (absence failure collected)]
      exact ⟨_, _, rfl, List.append_ne_nil_of_left_ne_nil (by decide) _, failure, rfl⟩
  | ok found =>
      right
      exact ⟨found, rfl, rfl, rfl⟩

structure Reports (revision : TreeRevision) (command : Command) : Prop where
  /-- Reports on a run are taken over as they are. -/
  accepted : ∀ target errors summary broken,
    Report.validate (Exit.scope command).1 (Exit.scope command).2
        (Report.batchOutput target errors summary ++ revision.extra broken) =
      .ok (Report.batchOutput target errors summary ++ revision.extra broken)
  /-- The result is told in some words. -/
  told : ∀ summary, revision.result summary ≠ []
  /-- All is well only where no file has failed. -/
  unfailed : ∀ summary, revision.success summary = true → summary.failures = []
  /-- The rule looks at files only to see what is there. -/
  steady : ∀ rules, Batch.Steady (revision.rule rules)
  /-- Links are listed by a check only, and they are the broken ones. -/
  listed : (∀ broken, Value.lookup? "broken_links" (revision.extra broken) = none) ∨
    (∃ cwd, revision.rule = Batch.checking cwd) ∧
      ∀ broken, Value.lookup? "broken_links" (revision.extra broken) =
        some (.list (broken.map Command.brokenRecord))
  /-- Links of other kinds are not listed. -/
  unlisted : ∀ broken, Value.lookup? "links" (revision.extra broken) = none

namespace Reports

variable (reports : revision.Reports command)

include reports

theorem presentable_refusal {error result : Text} (told : result ≠ []) :
    (revision.refusal target error result).Presentable command :=
  ⟨told, List.cons_ne_nil _ _, reports.accepted target [error] (Batch.summarize []) []⟩

theorem presentable_summary (target : Text) (summary : Batch.Summary) :
    (revision.summary target summary).Presentable command :=
  ⟨reports.told summary, List.cons_ne_nil _ _,
    reports.accepted target (summary.failures.map Report.errorLine) summary summary.broken⟩

theorem listed_summary (target : Text) (summary : Batch.Summary) :
    (revision.summary target summary).items "links" = [] ∧
      ((revision.summary target summary).items "broken_links" = [] ∨
        (∃ cwd, revision.rule = Batch.checking cwd) ∧
          (revision.summary target summary).items "broken_links" =
            summary.broken.map Command.brokenRecord) := by
  have added (name : Text)
      (absent : Value.lookup? name (Report.fullOutput target summary) = none) :
      Value.lookup? name (revision.summary target summary).output =
        Value.lookup? name (revision.extra summary.broken) := by
    rw [TreeRevision.summary, Schema.lookup?_append, absent, Option.none_or]
  constructor
  · rw [Report.items, added "links" rfl, reports.unlisted]
  · rw [Report.items, added "broken_links" rfl]
    rcases reports.listed with quiet | ⟨checks, records⟩
    · rw [quiet]
      exact Or.inl rfl
    · rw [records]
      exact Or.inr ⟨checks, rfl⟩

/-- A report on a run tells of a file that could not be read why it could not. -/
theorem blames_summary {shelf : Shelf} {found : List Text}
    (distinct : (found.map shelf.disk.place).Nodup) (member : file ∈ found)
    (unread : shelf.read file = .error failure) :
    (revision.summary target (Batch.summarize (Batch.processFiles (revision.rule rules)
      revision.write shelf found).1)).Blames file failure := by
  have steady := reports.steady rules
  generalize ran : Batch.processFiles (revision.rule rules) revision.write shelf found = result
  have failed : (file, failure) ∈ (Batch.summarize result.1).failures :=
    ran ▸ Batch.mem_failures_unread steady distinct member unread
  constructor
  case named =>
    refine ⟨Report.errorLine (file, failure), ?_, List.suffix_append _ _⟩
    exact List.mem_map_of_mem (f := Value.text) (List.mem_map_of_mem (f := Report.errorLine) failed)
  case unsuccessful =>
    refine Bool.eq_false_iff.mpr fun success => ?_
    rw [reports.unfailed _ success] at failed
    exact absurd failed List.not_mem_nil
  case unmodified =>
    intro listed
    rcases List.mem_map.mp listed with ⟨other, modified, same⟩
    cases same
    rw [← ran] at modified
    exact Batch.not_mem_modified_unread steady distinct unread modified
  case unlisted =>
    intro fields listed
    rcases reports.listed_summary target (Batch.summarize result.1) with ⟨noLinks, brokenLinks⟩
    rw [noLinks, List.nil_append] at listed
    rcases brokenLinks with quiet | ⟨⟨cwd, checks⟩, records⟩
    · rw [quiet] at listed
      exact absurd listed List.not_mem_nil
    · rw [records] at listed
      rcases List.mem_map.mp listed with ⟨broken, reported, same⟩
      cases same
      constructor
      · intro impossible
        cases impossible
      · intro named
        have ofFile : broken.file = file := Value.text.inj (Option.some.inj named)
        rw [← ran, checks] at reported
        exact Batch.file_ne_of_mem_broken distinct unread reported ofFile

end Reports
end TreeRevision

namespace Command

variable {environment : Environment} {disk : Disk} {path : Text} {rules : Rules}

/-! ## The revisions -/

theorem reports_checking (cwd path : Text) (fix : Bool) (root? : Option Text) :
    (checking cwd path fix root?).Reports (.check path fix root?) where
  accepted target errors summary broken :=
    Report.validate_of_inShape rfl rfl (by decide +kernel)
      (List.rel_append (Report.inShape_batchOutput target errors summary)
        (Report.inShape_checkFields fix broken))
  told _ := List.cons_ne_nil _ _
  unfailed summary success := List.isEmpty_iff.mp (Bool.and_eq_true_iff.mp success).2
  steady rules := Batch.Task.steady_rule cwd (.checking rules)
  listed := Or.inr ⟨⟨cwd, rfl⟩, fun _ => rfl⟩
  unlisted _ := rfl

theorem reports_normalizing (cwd path : Text) (dryRun : Bool) (root? : Option Text) :
    (normalizing cwd path dryRun root?).Reports (.normalize path dryRun root?) where
  accepted target errors summary broken :=
    Report.validate_of_inShape rfl rfl (by decide +kernel)
      (List.rel_append (Report.inShape_batchOutput target errors summary)
        (.cons ⟨rfl, _, rfl⟩ .nil))
  told _ := by
    cases dryRun with
    | true => exact List.cons_ne_nil _ _
    | false => exact List.cons_ne_nil _ _
  unfailed summary success := List.isEmpty_iff.mp success
  steady rules := Batch.Task.steady_rule cwd (.normalizing rules)
  listed := Or.inl fun _ => rfl
  unlisted _ := rfl

theorem reports_substituting (path oldBase newBase : Text) (dryRun : Bool) :
    (substituting path oldBase newBase dryRun).Reports
      (.substitute path oldBase newBase dryRun) where
  accepted target errors summary broken :=
    Report.validate_of_inShape rfl rfl (by decide +kernel)
      (List.rel_append (Report.inShape_batchOutput target errors summary)
        (.cons ⟨rfl, _, rfl⟩ (.cons ⟨rfl, _, rfl⟩ (.cons ⟨rfl, _, rfl⟩ .nil))))
  told _ := by
    cases dryRun with
    | true => exact List.cons_ne_nil _ _
    | false => exact List.cons_ne_nil _ _
  unfailed summary success := List.isEmpty_iff.mp success
  steady rules := Batch.Task.steady_rule [] (.substituting oldBase newBase rules.exclusions)
  listed := Or.inl fun _ => rfl
  unlisted _ := rfl

/-! ## All commands -/

def reads (disk : Disk) : Command → List Text
  | links path => [disk.resolve path]
  | check path _ _ => (Files.collect (Shelf.ofDisk disk) (disk.resolve path)).toOption.getD []
  | normalize path _ _ => (Files.collect (Shelf.ofDisk disk) (disk.resolve path)).toOption.getD []
  | substitute path oldBase _ _ =>
    if oldBase.isEmpty then []
    else (Files.collect (Shelf.ofDisk disk) (disk.resolve path)).toOption.getD []
  | style path => (Files.walk (Shelf.ofDisk disk) (disk.resolve path)).toOption.getD []
  | config _ => []

/-- How a command has ended, if what it had to read is taken into account. -/
inductive Ended (command : Command) (disk : Disk) (run : Run) : Prop
  /-- There is a report, and it lays each file that could not be read to that file. -/
  | reported {report : Report} (ending : run.ending = .ok report)
      (presentable : report.Presentable command)
      (blames : ∀ file ∈ command.reads disk, ∀ failure,
        (Shelf.ofDisk disk).read file = .error failure → report.Blames file failure)
  /-- The style of a tree was asked for, and a file of the tree is no text. -/
  | stopped {path file : Text} {fault : DecodingFault} (asked : command = .style path)
      (among : file ∈ command.reads disk)
      (unread : (Shelf.ofDisk disk).read file = .error (.undecodable fault))
      (ending : run.ending = .error (.undecodable fault))

section Ending

variable (proper : disk.Proper) (clean : disk.Clean)
  (there : disk.present (disk.resolve path) = .ok true)
  (room : Utf8.length (disk.resolve path) + disk.span < Disk.pathLimit)

include proper clean there room

theorem ended_revision {revision : TreeRevision} {command : Command}
    (reports : revision.Reports command) (named : revision.path = path)
    (configured : Settings.loadRules environment disk revision.root? = .ok rules)
    (reads : command.reads disk =
      (Files.collect (Shelf.ofDisk disk) (disk.resolve path)).toOption.getD []) :
    command.Ended disk (revision.run environment disk) ∧
      ∀ file ∈ command.reads disk, ∀ failure, (Shelf.ofDisk disk).read file = .error failure →
        (Shelf.ofDisk (revision.run environment disk).disk).read file = .error failure := by
  have ran : revision.run environment disk =
      revision.runOver disk (disk.resolve path) rules := by
    rw [TreeRevision.run, configured, named]
  rw [← disk.tidy_resolve path] at room
  rw [ran]
  rcases revision.ending_runOver rules fun failure stopped =>
      Disk.isAbsence_of_collect proper clean there room stopped with
    ⟨error, result, ending, told, failure, stopped⟩ | ⟨found, collected, ending, left⟩
  · have none : command.reads disk = [] := by
      rw [reads, stopped]
      rfl
    refine ⟨.reported ending (reports.presentable_refusal told) fun file member => ?_,
      fun file member => ?_⟩
    · rw [none] at member
      exact absurd member List.not_mem_nil
    · rw [none] at member
      exact absurd member List.not_mem_nil
  · have all : command.reads disk = found := by
      rw [reads, collected]
      rfl
    have distinct := (Shelf.layout (Shelf.ofDisk disk) proper).collect collected
    have alike := Batch.shelfFrame.alike_processFiles (revision.rule rules) revision.write
      (Shelf.ofDisk disk) found
    refine ⟨.reported ending (reports.presentable_summary _ _) fun file member failure unread =>
      reports.blames_summary distinct (all ▸ member) unread, fun file member failure unread => ?_⟩
    rw [left, ← Shelf.eq_ofDisk alike.encoding]
    exact Batch.read_unread distinct (all ▸ member) unread

/-- The style of a tree is told if every file in it is text, or if the path is that of no
directory. -/
theorem ending_tellStyle :
    (∃ report, (tellStyle disk path).ending = .ok report ∧ report.Presentable (.style path) ∧
      ∀ file ∈ (Command.style path).reads disk,
        ∃ content, (Shelf.ofDisk disk).read file = .ok content) ∨
    ∃ file ∈ (Command.style path).reads disk, ∃ fault,
      (Shelf.ofDisk disk).read file = .error (.undecodable fault) ∧
        (tellStyle disk path).ending = .error (.undecodable fault) := by
  rw [← disk.tidy_resolve path] at room
  unfold tellStyle
  dsimp only
  cases surveyed : Survey.styleOf (Shelf.ofDisk disk) (disk.resolve path) with
  | ok most =>
      rcases Survey.read_of_styleOf surveyed with ⟨found, walked, read⟩
      refine Or.inl ⟨_, rfl, ⟨List.cons_ne_nil _ _, List.cons_ne_nil _ _,
        Report.validate_of_inShape rfl rfl (by decide +kernel)
          (Report.inShape_styleOutput _ _ _)⟩, fun file member => ?_⟩
      rw [reads, walked] at member
      exact read file member
  | error failure =>
      rcases Survey.unread_of_styleOf surveyed with stopped | ⟨found, walked, file, member, unread⟩
      · have absent := Disk.isAbsence_of_walk proper clean there room stopped
        refine Or.inl ⟨_, if_pos absent, ⟨List.cons_ne_nil _ _, List.cons_ne_nil _ _,
          Report.validate_of_inShape rfl rfl (by decide +kernel)
            (Report.inShape_styleOutput _ _ _)⟩, fun file member => ?_⟩
        rw [reads, stopped] at member
        exact absurd member List.not_mem_nil
      · rcases Disk.exists_readBytes_of_walk proper clean there room walked file member with
          ⟨content, held⟩
        rcases Shelf.undecodable_of_read held unread with ⟨fault, rfl⟩
        refine Or.inr ⟨file, ?_, fault, unread, rfl⟩
        rw [reads, walked]
        exact member

theorem ended_style : (Command.style path).Ended disk (tellStyle disk path) := by
  rcases ending_tellStyle proper clean there room with
    ⟨report, ending, presentable, read⟩ | ⟨file, among, fault, unread, ending⟩
  · refine .reported ending presentable fun file member failure unread => ?_
    rcases read file member with ⟨content, readable⟩
    rw [readable] at unread
    cases unread
  · exact .stopped rfl among unread ending

end Ending

theorem ended_links (disk : Disk) (path : Text) :
    (Command.links path).Ended disk (listLinks disk path) := by
  unfold listLinks Survey.ofFile
  dsimp only
  cases read : Files.read (Shelf.ofDisk disk) (disk.resolve path) with
  | ok content =>
      refine .reported rfl ⟨List.cons_ne_nil _ _, List.cons_ne_nil _ _,
        Report.validate_of_inShape rfl rfl (by decide +kernel)
          (Report.inShape_showOutput _ _ _)⟩ fun file member failure unread => ?_
      rw [List.mem_singleton.mp member] at unread
      have impossible := unread.symm.trans read
      cases impossible
  | error failure =>
      refine .reported (if_pos (Shelf.isOrdinary_of_read read)) ⟨List.cons_ne_nil _ _,
        List.cons_ne_nil _ _, Report.validate_of_inShape rfl rfl (by decide +kernel)
          (Report.inShape_showOutput _ _ _)⟩ fun file member other unread => ?_
      rw [List.mem_singleton.mp member] at unread
      have same := unread.symm.trans read
      cases same
      exact ⟨⟨_, List.mem_cons_self, List.suffix_rfl⟩, rfl, List.not_mem_nil,
        fun _ listed => absurd listed List.not_mem_nil⟩

/-! ## Files are left as they are -/

@[simp] theorem disk_listLinks (disk : Disk) (path : Text) : (listLinks disk path).disk = disk := by
  unfold listLinks
  dsimp only
  split
  · rfl
  · rfl

@[simp] theorem disk_tellStyle (disk : Disk) (path : Text) : (tellStyle disk path).disk = disk := by
  unfold tellStyle
  dsimp only
  split
  · rfl
  · rfl

/-- A command about links that is given a path that is there, and not too long, comes to a report
that can be shown, and a file that cannot be read is told as an error and left as it is.  Only the
telling of a style ends without a report, and it does so exactly if a file in the tree cannot be
read. -/
theorem ended_of_run {command : Command} (proper : disk.Proper) (clean : disk.Clean)
    (named : command.path? = some path) (there : disk.present (disk.resolve path) = .ok true)
    (room : Utf8.length (disk.resolve path) + disk.span < Disk.pathLimit)
    (configured : Settings.loadRules environment disk command.root? = .ok rules) :
    let run := command.run environment disk
    command.Ended disk run ∧
      ((∃ failure, run.ending = .error failure) ↔
        command = .style path ∧ ∃ file ∈ command.reads disk, ∃ failure,
          (Shelf.ofDisk disk).read file = .error failure) ∧
      ∀ file ∈ command.reads disk, ∀ failure, (Shelf.ofDisk disk).read file = .error failure →
        (Shelf.ofDisk run.disk).read file = .error failure := by
  intro run
  have both : command.Ended disk run ∧
      ∀ file ∈ command.reads disk, ∀ failure, (Shelf.ofDisk disk).read file = .error failure →
        (Shelf.ofDisk run.disk).read file = .error failure := by
    cases command with
    | links target =>
        cases named
        refine ⟨ended_links disk path, fun file member failure unread => ?_⟩
        rw [show run.disk = disk from disk_listLinks disk path]
        exact unread
    | check target fix root? =>
        cases named
        exact ended_revision proper clean there room
          (reports_checking environment.surroundings.cwd path fix root?) rfl configured rfl
    | normalize target dryRun root? =>
        cases named
        exact ended_revision proper clean there room
          (reports_normalizing environment.surroundings.cwd path dryRun root?) rfl configured rfl
    | substitute target oldBase newBase dryRun =>
        cases named
        have reports := reports_substituting path oldBase newBase dryRun
        change (Command.substitute path oldBase newBase dryRun).Ended disk
            (substituteLinks environment disk path oldBase newBase dryRun) ∧
          ∀ file ∈ _, ∀ failure, _ → (Shelf.ofDisk
            (substituteLinks environment disk path oldBase newBase dryRun).disk).read file = _
        rw [substituteLinks]
        split
        · next empty =>
            have none : (Command.substitute path oldBase newBase dryRun).reads disk = [] :=
              if_pos empty
            refine ⟨.reported rfl (reports.presentable_refusal (List.cons_ne_nil _ _))
              fun file member => ?_, fun file member failure unread => unread⟩
            rw [none] at member
            exact absurd member List.not_mem_nil
        · next given =>
            exact ended_revision proper clean there room reports rfl configured (if_neg given)
    | style target =>
        cases named
        refine ⟨ended_style proper clean there room, fun file member failure unread => ?_⟩
        rw [show run.disk = disk from disk_tellStyle disk path]
        exact unread
    | config name => cases named
  refine ⟨both.1, ⟨?_, ?_⟩, both.2⟩
  · rintro ⟨failure, stopped⟩
    cases both.1 with
    | reported ending =>
        rw [ending] at stopped
        cases stopped
    | @stopped target file fault asked among unread =>
        rw [asked] at named
        cases named
        exact ⟨asked, file, among, _, unread⟩
  · rintro ⟨rfl, file, among, failure, unread⟩
    rcases ending_tellStyle proper clean there room with
      ⟨_, _, _, read⟩ | ⟨_, _, fault, _, ending⟩
    · rcases read file among with ⟨content, readable⟩
      rw [readable] at unread
      cases unread
    · exact ⟨_, ending⟩

/-- A tree with a file that is no text: a check reports it, and the telling of the style stops. -/
theorem ended_of_run_undecodable :
    let surroundings : Surroundings := { cwd := "/w", home := "/h" }
    let environment : Environment := { surroundings, named? := some "/w/.m" }
    let settings : Text :=
      "\x7b\x22links\x22: \x7b\x22dataset_root\x22: \x22/w/d\x22\x7d\x7d"
    let disk := Disk.empty surroundings
      |>.plant "/w/.m/config.json" (Utf8.encode settings)
      |>.plant "/w/d/a.md" [0xff]
    let check := Command.check "d" false none
    let style := Command.style "d"
    let fault : DecodingFault :=
      { encoding := "utf-8", refused := [0xff], start := 0, reason := "invalid start byte" }
    (check.Ended disk (check.run environment disk) ∧
        style.Ended disk (style.run environment disk)) ∧
      check.reads disk = ["/w/d/a.md"] ∧ style.reads disk = ["/w/d/a.md"] ∧
      (Shelf.ofDisk disk).read "/w/d/a.md" = .error (.undecodable fault) ∧
      ∃ failure, (style.run environment disk).ending = .error failure := by
  intro surroundings environment settings disk check style fault
  have proper : disk.Proper := by decide +kernel
  have clean : disk.Clean := by decide +kernel
  have there : disk.present (disk.resolve "d") = .ok true := by decide +kernel
  have room : Utf8.length (disk.resolve "d") + disk.span < Disk.pathLimit := by decide +kernel
  have configured : Settings.loadRules environment disk none =
      .ok { root := "/w/d", folders := [], exclusions := [] } := by decide +kernel
  have checked := @ended_of_run _ _ "d" _ check proper clean rfl there room configured
  have told := @ended_of_run _ _ "d" _ style proper clean rfl there room configured
  have found : style.reads disk = ["/w/d/a.md"] := by decide +kernel
  have unread : (Shelf.ofDisk disk).read "/w/d/a.md" = .error (.undecodable fault) := by
    decide +kernel
  exact ⟨⟨checked.1, told.1⟩, by decide +kernel, found, unread,
    told.2.1.mpr ⟨rfl, _, found ▸ List.mem_cons_self, _, unread⟩⟩

end Command
end Crosslink

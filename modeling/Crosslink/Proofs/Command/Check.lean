import Crosslink.Command.Check
import Crosslink.Proofs.Config.Load
import Crosslink.Proofs.Files.Descent
import Crosslink.Proofs.Revision.Steady
import Crosslink.Proofs.Revision.Tree
import Crosslink.Proofs.Revision.Verdict

namespace Crosslink

/-!
What a successful check vouches for.  It has read every file below its path and found each link
to lead somewhere or to be up for repair; the same files and directories are there after it.  A
link for which a repair was found but not made, because no repairs were wanted or because the
link was not found again in the text, does not keep the check from succeeding: these are the
links that lead nowhere although all is reported to be well.
-/

namespace Run

/-- The command came to a report on which nothing is wrong. -/
def succeeded (run : Run) : Bool :=
  match run.ending with
  | .ok report => report.success
  | .error _ => false

end Run

namespace TreeRevision

variable {revision : TreeRevision} {environment : Environment} {disk : Disk}

@[simp] theorem succeeded_unconfigured (target : Text) (fault : LoadFault) :
    (revision.unconfigured disk target fault).succeeded = false := by
  rw [unconfigured, Run.succeeded, Run.ofEnding]
  cases fault.stop? with
  | none => rfl
  | some failure => rfl

theorem succeeded_runOver_of_error {target : Text} {rules : Rules} {failure : Failure}
    (stopped : Files.collect (Shelf.ofDisk disk) target = .error failure) :
    (revision.runOver disk target rules).succeeded = false := by
  rw [runOver, Batch.processPath, stopped]
  dsimp only [Run.succeeded, Run.ofEnding]
  cases failure.isAbsence with
  | true => rfl
  | false => rfl

/-- What a command has done that succeeds: it has loaded its rules, found the files that its path
names, and run over them. -/
theorem run_of_succeeded (succeeded : (revision.run environment disk).succeeded = true) :
    ∃ rules found, Settings.loadRules environment disk revision.root? = .ok rules ∧
      Files.collect (Shelf.ofDisk disk) (disk.resolve revision.path) = .ok found ∧
      let result :=
        Batch.processFiles (revision.rule rules) revision.write (Shelf.ofDisk disk) found
      revision.success (Batch.summarize result.1) = true ∧
        (revision.run environment disk).disk = result.2.disk := by
  unfold run at succeeded ⊢
  dsimp only at succeeded ⊢
  cases loaded : Settings.loadRules environment disk revision.root? with
  | error fault =>
      rw [loaded] at succeeded
      dsimp only at succeeded
      rw [succeeded_unconfigured] at succeeded
      cases succeeded
  | ok rules =>
      rw [loaded] at succeeded
      dsimp only at succeeded ⊢
      cases collected : Files.collect (Shelf.ofDisk disk) (disk.resolve revision.path) with
      | error failure =>
          rw [succeeded_runOver_of_error collected] at succeeded
          cases succeeded
      | ok found =>
          unfold runOver Batch.processPath at succeeded ⊢
          rw [collected] at succeeded ⊢
          exact ⟨rules, found, rfl, rfl, succeeded, rfl⟩

end TreeRevision

namespace Command

variable {environment : Environment} {disk : Disk} {path : Text} {fix : Bool} {root? : Option Text}

/-- What a check vouches for in one file of a tree: how the file read, what its edits came to, and
how it reads in the tree that is left. -/
structure Vouched (cwd : Text) (rules : Rules) (fix : Bool) (disk left : Disk)
    (file before : Text) (outcome : Edit.Outcome) : Prop where
  /-- The file was read. -/
  source : (Shelf.ofDisk disk).read file = .ok before
  /-- It was revised, and no link in it was reported. -/
  revised : Batch.revise (Batch.checking cwd rules (Shelf.ofDisk disk) file) before =
    .ok (outcome, [])
  /-- It reads as before unless repairs are wanted and one was made. -/
  kept : (Shelf.ofDisk left).read file = .ok (outcome.left fix before)
  /-- In the tree that is left its links lead somewhere unless they are still up for repair. -/
  settled : Check.Settled left.present cwd rules file before (outcome.left fix before)

section Files

def checkFiles (cwd : Text) (rules : Rules) (fix : Bool) (disk : Disk) (found : List Text) :
    List FileRecord × Shelf :=
  Batch.processFiles (Batch.checking cwd rules) fix (Shelf.ofDisk disk) found

variable {cwd : Text} {rules : Rules} {found : List Text} {left : Disk}

/-- A run over the files that a path names vouches for each of them if nothing is reported. -/
theorem vouched_of_run (proper : disk.Proper)
    (rooted : Path.isAbsolute disk.surroundings.cwd = true)
    (rulesRooted : Path.isAbsolute rules.root = true)
    (collected : Files.collect (Shelf.ofDisk disk) (disk.resolve path) = .ok found)
    (after : (checkFiles cwd rules fix disk found).2 = Shelf.ofDisk left)
    (unbroken : (Batch.summarize (checkFiles cwd rules fix disk found).1).broken = [])
    (unfailed : (Batch.summarize (checkFiles cwd rules fix disk found).1).failures = [])
    {file : Text} (member : file ∈ found) :
    ∃ before outcome, Vouched cwd rules fix disk left file before outcome := by
  have steady : Batch.Steady (Batch.checking cwd rules : Rule Shelf) :=
    Batch.Task.steady_rule cwd (.checking rules)
  have distinct := (Shelf.layout (Shelf.ofDisk disk) proper).collect collected
  have alike := Batch.shelfFrame.alike_processFiles (Batch.checking cwd rules) fix
    (Shelf.ofDisk disk) found
  have recorded :
      (Batch.processFile (Shelf.ofDisk disk) (Batch.checking cwd rules) fix file).1 ∈
        (checkFiles cwd rules fix disk found).1 := by
    rw [checkFiles, Batch.shelfFrame.processFiles_fst steady distinct]
    exact List.mem_map_of_mem member
  rcases Batch.result_of_clean unfailed unbroken recorded with ⟨outcome, made, quiet⟩
  rcases steady.read_of_ok rfl distinct member made with ⟨before, source, revised, kept⟩
  rw [quiet] at revised
  rw [checkFiles] at after
  rw [after] at kept alike
  have absolute : Path.isAbsolute file = true :=
    Files.collect_forall (fun path => Path.isAbsolute path = true)
      (fun _ name inside => Path.isAbsolute_under inside name) (Disk.isAbsolute_resolve rooted path)
      collected file member
  have settled := Check.settled_of_revise rulesRooted absolute revised (outcome.left_eq fix before)
  rw [← Shelf.Alike.present alike] at settled
  exact ⟨before, outcome, source, revised, kept, settled⟩

end Files

/-- A check that succeeds leaves the same files and directories there, changes nothing if no
repairs are wanted, and vouches for every file that its path names. -/
theorem vouched_of_succeeded (proper : disk.Proper)
    (rooted : Path.isAbsolute disk.surroundings.cwd = true)
    (also : Path.isAbsolute environment.surroundings.cwd = true)
    (succeeded : (checkLinks environment disk path fix root?).succeeded = true) :
    let left := (checkLinks environment disk path fix root?).disk
    ∃ rules found, Settings.loadRules environment disk root? = .ok rules ∧
      Files.collect (Shelf.ofDisk left) (disk.resolve path) = .ok found ∧
      left.present = disk.present ∧ (fix = false → left = disk) ∧
      ∀ file ∈ found, ∃ before outcome,
        Vouched environment.surroundings.cwd rules fix disk left file before outcome := by
  intro left
  rcases TreeRevision.run_of_succeeded succeeded with
    ⟨rules, found, loaded, collected, clean, remains⟩
  rcases Bool.and_eq_true_iff.mp clean with ⟨unbroken, unfailed⟩
  have alike := Batch.shelfFrame.alike_processFiles
    (Batch.checking environment.surroundings.cwd rules) fix (Shelf.ofDisk disk) found
  have after : (checkFiles environment.surroundings.cwd rules fix disk found).2 =
      Shelf.ofDisk left :=
    (Shelf.eq_ofDisk alike.encoding).trans (congrArg Shelf.ofDisk remains.symm)
  rw [← checkFiles, after] at alike
  refine ⟨rules, found, loaded, alike.collect ▸ collected, alike.present, ?_, ?_⟩
  · rintro rfl
    rw [checkFiles, Batch.processFiles_dry] at after
    exact (congrArg Shelf.disk after).symm
  · exact fun file member => vouched_of_run proper rooted
      (Settings.isAbsolute_root_of_loadRules rooted also loaded) collected
      after (List.isEmpty_iff.mp unbroken) (List.isEmpty_iff.mp unfailed) member

/-- A check with repairs of a tree in which one link climbs too far.  The link is written with a
backslash, so its repair is not made; the check succeeds, and the link leads nowhere. -/
theorem vouched_of_succeeded_escaped :
    let surroundings : Surroundings := { cwd := "/w", home := "/h" }
    let environment : Environment := { surroundings, named? := some "/w/.m" }
    let settings : Text :=
      "\x7b\x22links\x22: \x7b\x22dataset_root\x22: \x22/w/d\x22\x7d\x7d"
    let page : Text := "[g](../../gui\\_de.md)"
    let disk := Disk.empty surroundings
      |>.plant "/w/.m/config.json" (Utf8.encode settings)
      |>.plant "/w/d/docs/a/b.md" (Utf8.encode page)
      |>.plant "/w/d/docs/gui_de.md" []
    let left := (checkLinks environment disk "d" true none).disk
    ((checkLinks environment disk "d" true none).succeeded = true ∧
      ∃ rules found, Settings.loadRules environment disk none = .ok rules ∧
        Files.collect (Shelf.ofDisk left) (disk.resolve "d") = .ok found ∧
        left.present = disk.present ∧ (true = false → left = disk) ∧
        ∀ file ∈ found, ∃ before outcome,
          Vouched environment.surroundings.cwd rules true disk left file before outcome) ∧
      (Shelf.ofDisk left).read "/w/d/docs/a/b.md" = .ok page ∧
      (extractLinks page).map (·.href) = (["../../gui_de.md"] : List Text) ∧
      Target.path "/w" [] "/w/d" "/w/d/docs/a/b.md" "../../gui_de.md" = "/w/d/gui_de.md" ∧
      left.present "/w/d/gui_de.md" = .ok false := by
  intro surroundings environment settings page disk left
  have succeeded : (checkLinks environment disk "d" true none).succeeded = true := by
    decide +kernel
  have proper : disk.Proper := by decide +kernel
  have rooted : Path.isAbsolute disk.surroundings.cwd = true := by decide +kernel
  exact ⟨⟨succeeded, vouched_of_succeeded proper rooted rfl succeeded⟩,
    by decide +kernel, by decide +kernel, by decide +kernel, by decide +kernel⟩

end Command
end Crosslink

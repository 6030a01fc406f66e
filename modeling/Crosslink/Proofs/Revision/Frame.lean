import Crosslink.Proofs.Revision.Step

namespace Crosslink
namespace Batch

/-!
What a run leaves alone.  Writing into a file that can be read changes what stands in the place
of that file, and neither what is there nor what stands in other places.  So as long as no two
files of a run share a place, each file is worked on as it was at first, and a rule that looks
at the other files only to see what is there makes of it what it would have made of it at first.
-/

/-- What is left alone when a file that can be read is written. -/
structure Frame (σ : Type) [Files σ] (κ γ : Type) where
  /-- The same files and directories are there. -/
  Alike : σ → σ → Prop
  /-- The place of a path. -/
  place : σ → Text → κ
  /-- What stands in a place. -/
  cell : σ → κ → γ
  refl : ∀ files, Alike files files
  trans : ∀ {files other more}, Alike files other → Alike other more → Alike files more
  /-- Places do not move. -/
  place_eq : ∀ {files other}, Alike files other → place other = place files
  /-- What is there stays there. -/
  present_eq : ∀ {files other}, Alike files other → Files.present other = Files.present files
  /-- What a file reads depends on what stands in its place. -/
  read_eq : ∀ {files other file}, Alike files other →
    cell other (place files file) = cell files (place files file) →
    Files.read other file = Files.read files file
  /-- Whether a file can be written does not change. -/
  write_eq : ∀ {files other file old again}, Alike files other →
    Files.read files file = .ok old → Files.read other file = .ok again →
    ∀ content, (Files.write other file content).1 = (Files.write files file content).1
  /-- A write leaves the same things there. -/
  alike_write : ∀ {files file old}, Files.read files file = .ok old →
    ∀ content, Alike files (Files.write files file content).2
  /-- A write leaves other places alone. -/
  cell_write : ∀ {files file old}, Files.read files file = .ok old →
    ∀ content key, key ≠ place files file →
      cell (Files.write files file content).2 key = cell files key

def Steady {σ : Type} [Files σ] (rule : Rule σ) : Prop :=
  ∀ files other, Files.present files = Files.present other → rule files = rule other

namespace Frame

variable {σ κ γ : Type} [Files σ] (frame : Frame σ κ γ)
variable {rule : Rule σ} {write : Bool} {files now next : σ} {file : Text}

/-! ## One step -/

section Step

variable {result : Except Failure Edit.Outcome} {broken : List BrokenLink}

theorem step_alike (step : Step rule write files file result broken next) :
    frame.Alike files next := by
  rcases step.eq_or_eq_write with rfl | ⟨old, content, source, rfl⟩
  · exact frame.refl next
  · exact frame.alike_write source content

/-- A step changes what stands in the place of its own file at most. -/
theorem step_cell (step : Step rule write files file result broken next) {key : κ}
    (different : key ≠ frame.place files file) : frame.cell next key = frame.cell files key := by
  rcases step.eq_or_eq_write with rfl | ⟨old, content, source, rfl⟩
  · rfl
  · exact frame.cell_write source content key different

end Step

/-! ## Runs -/

/-- A run does not change what is there. -/
theorem alike_processFiles (rule : Rule σ) (write : Bool) (files : σ) (list : List Text) :
    frame.Alike files (processFiles rule write files list).2 :=
  processFiles_invariant rule write (fun now _ => frame.Alike files now)
    (fun now file _ alike =>
      frame.trans alike (frame.step_alike (step_processFile rule write now file)))
    files list (frame.refl files)

/-- A run leaves every place as it is that none of its files lies in. -/
theorem cell_processFiles (rule : Rule σ) (write : Bool) {list : List Text} {key : κ}
    (absent : ∀ file ∈ list, frame.place files file ≠ key) :
    frame.cell (processFiles rule write files list).2 key = frame.cell files key := by
  have kept := processFiles_invariant rule write
    (fun now rest => frame.Alike files now ∧ frame.cell now key = frame.cell files key ∧
      ∀ file ∈ rest, frame.place files file ≠ key)
    ?_ files list ⟨frame.refl files, rfl, absent⟩
  · exact kept.2.1
  · rintro now file rest ⟨alike, same, others⟩
    have step := step_processFile rule write now file
    have different : key ≠ frame.place now file := by
      rw [frame.place_eq alike]
      exact (others file List.mem_cons_self).symm
    exact ⟨frame.trans alike (frame.step_alike step),
      (frame.step_cell step different).trans same,
      fun other member => others other (List.mem_cons_of_mem file member)⟩

section Distinct

variable (rule : Rule σ) (write : Bool)
variable {list before after : List Text} (distinct : (list.map (frame.place files)).Nodup)
  (split : list = before ++ file :: after)

include distinct split

/-- When its turn comes a file still stands as it did at first. -/
theorem cell_before : frame.cell (processFiles rule write files before).2 (frame.place files file) =
    frame.cell files (frame.place files file) := by
  apply frame.cell_processFiles
  intro other member same
  rw [split, List.map_append, List.map_cons] at distinct
  exact (List.nodup_append.mp distinct).2.2 _ (List.mem_map_of_mem member) _ List.mem_cons_self same

/-- What its own step has left of a file stands there in the end. -/
theorem cell_after : frame.cell (processFiles rule write files list).2 (frame.place files file) =
    frame.cell (processFile (processFiles rule write files before).2 rule write file).2
      (frame.place files file) := by
  have alike := frame.trans (frame.alike_processFiles rule write files before)
    (frame.step_alike (step_processFile rule write (processFiles rule write files before).2 file))
  rw [split, List.map_append, List.map_cons] at distinct
  rw [split, processFiles_append, processFiles_cons]
  apply frame.cell_processFiles
  intro other member same
  rw [frame.place_eq alike] at same
  have apart := (List.nodup_cons.mp (List.nodup_append.mp distinct).2.1).1
  exact apart (same ▸ List.mem_map_of_mem member)

/-- When its turn comes a file is read as at first. -/
theorem read_before :
    Files.read (processFiles rule write files before).2 file = Files.read files file :=
  frame.read_eq (frame.alike_processFiles rule write files before)
    (frame.cell_before rule write distinct split)

/-- A file is read in the end as its own step has left it. -/
theorem read_after : Files.read (processFiles rule write files list).2 file =
    Files.read (processFile (processFiles rule write files before).2 rule write file).2 file := by
  have stepped := frame.trans (frame.alike_processFiles rule write files before)
    (frame.step_alike (step_processFile rule write (processFiles rule write files before).2 file))
  have final : (processFiles rule write files list).2 =
      (processFiles rule write
        (processFile (processFiles rule write files before).2 rule write file).2 after).2 := by
    rw [split, processFiles_append, processFiles_cons]
  have same := frame.cell_after rule write distinct split
  rw [final] at same ⊢
  apply frame.read_eq (frame.alike_processFiles rule write _ after)
  rw [frame.place_eq stepped]
  exact same

end Distinct

/-! ## Steady rules -/

theorem rule_eq (steady : Steady rule) (alike : frame.Alike files now) : rule now = rule files :=
  steady now files (frame.present_eq alike)

/-- What is recorded of a file depends on what stands in its own place only. -/
theorem processFile_fst (steady : Steady rule) (alike : frame.Alike files now)
    (same : frame.cell now (frame.place files file) = frame.cell files (frame.place files file)) :
    (processFile now rule write file).1 = (processFile files rule write file).1 := by
  have read := frame.read_eq alike same
  apply processFile_fst_congr write read
  · rw [frame.rule_eq steady alike]
  · exact fun old source => frame.write_eq alike source (read.trans source)

/-- A run records of each file what the work on that file alone records. -/
theorem processFiles_fst (steady : Steady rule) {list : List Text}
    (distinct : (list.map (frame.place files)).Nodup) :
    (processFiles rule write files list).1 =
      list.map fun file => (processFile files rule write file).1 := by
  -- The files still to come stand as they did at first.
  suffices general : ∀ (now : σ), frame.Alike files now →
      (∀ file ∈ list,
        frame.cell now (frame.place files file) = frame.cell files (frame.place files file)) →
      (processFiles rule write now list).1 =
        list.map fun file => (processFile files rule write file).1 from
    general files (frame.refl files) fun _ _ => rfl
  induction list with
  | nil => exact fun _ _ _ => rfl
  | cons file rest inductionHypothesis =>
      intro now alike untouched
      have parts := List.nodup_cons.mp distinct
      have step := step_processFile rule write now file
      rw [processFiles_cons, List.map_cons,
        frame.processFile_fst steady alike (untouched file List.mem_cons_self)]
      refine congrArg (List.cons _)
        (inductionHypothesis parts.2 _ (frame.trans alike (frame.step_alike step)) ?_)
      intro other member
      have different : frame.place files other ≠ frame.place now file := by
        rw [frame.place_eq alike]
        exact fun equal => parts.1 (equal ▸ List.mem_map_of_mem member)
      exact (frame.step_cell step different).trans
        (untouched other (List.mem_cons_of_mem file member))

theorem record_eq (steady : Steady rule) {list : List Text}
    (distinct : (list.map (frame.place files)).Nodup) {record : FileRecord}
    (listed : record ∈ (processFiles rule write files list).1) (named : record.file = file) :
    record = (processFile files rule write file).1 := by
  rw [frame.processFiles_fst steady distinct] at listed
  rcases List.mem_map.mp listed with ⟨other, _, rfl⟩
  rw [file_processFile] at named
  rw [named]

end Frame
end Batch
end Crosslink

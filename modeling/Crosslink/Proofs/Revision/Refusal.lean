import Crosslink.Proofs.Files.Address
import Crosslink.Proofs.Href.Kind
import Crosslink.Proofs.Revision.Canonical
import Crosslink.Proofs.Revision.Steady

namespace Crosslink

/-!
Files that a rule refuses.  A normalization of links in memory can be stopped by one kind of link
only: one that may be touched and begins with its query, so that there is no path to write.  Such a
link stops the work on its whole file, whatever was made of the links before it.  It does not stop
the run: a file that is refused is left as it is, and since a rule looks at the other files only to
see what is there, the run does with them what it would have done without that file.
-/

/-! ## What a normalization refuses -/

namespace Normalize

/-- A normalization can make nothing of the href: it may be touched, and it begins with its
query. -/
def Refuses (rules : Rules) (href : Text) : Prop :=
  Href.isSkipped rules.exclusions href = false ∧ href.startsWith ['?'] = true

instance (rules : Rules) (href : Text) : Decidable (Refuses rules href) :=
  inferInstanceAs (Decidable (_ ∧ _))

variable {present : Text → Bool} {cwd file : Text} {rules : Rules} {link : Link}
variable {failure : Failure}

theorem treat_eq_error_iff :
    treat (fun place => .ok (present place)) cwd rules file link = .error failure ↔
      failure = .emptyLinkPath ∧ Refuses rules link.href := by
  rcases treat_cases present cwd rules file link with
    ⟨skipped, made⟩ | ⟨unskipped, empty, made⟩ | ⟨unskipped, written, _, made⟩ |
      ⟨unskipped, written, _, _, _, _, made⟩
  · rw [made]
    refine ⟨nofun, fun ⟨_, unskipped, _⟩ => ?_⟩
    cases skipped.symm.trans unskipped
  · rw [made, Refuses, ← Href.path_eq_nil_iff unskipped]
    exact ⟨fun same => ⟨(Except.error.inj same).symm, unskipped, empty⟩,
      fun ⟨same, _⟩ => congrArg Except.error same.symm⟩
  · rw [made, Refuses, ← Href.path_eq_nil_iff unskipped]
    exact ⟨nofun, fun ⟨_, _, empty⟩ => absurd empty written⟩
  · rw [made, Refuses, ← Href.path_eq_nil_iff unskipped]
    exact ⟨nofun, fun ⟨_, _, empty⟩ => absurd empty written⟩

/-- A normalization is stopped exactly by an href that it refuses. -/
theorem generate_eq_error_iff {links : List Link} :
    (generate (fun place => .ok (present place)) cwd rules file links).result = .error failure ↔
      failure = .emptyLinkPath ∧ ∃ link ∈ links, Refuses rules link.href := by
  constructor
  · intro stopped
    rcases Generation.exists_of_result_eq_error stopped with ⟨link, member, untreated⟩
    rcases treat_eq_error_iff.mp untreated with ⟨same, refused⟩
    exact ⟨same, link, member, refused⟩
  · rintro ⟨same, link, member, refused⟩
    rcases Generation.exists_result_eq_error member
      (treat_eq_error_iff.mpr ⟨rfl, refused⟩) with ⟨first, stopped⟩
    -- Whichever link stops the rule, it stops it for the same reason.
    rcases Generation.exists_of_result_eq_error stopped with ⟨other, _, untreated⟩
    rw [generate, stopped, (treat_eq_error_iff.mp untreated).1, same]

/-- Any other href that may be touched has a target, of which a relative form can be asked from
anywhere. -/
theorem exists_target (cwd : Text) (file : Text) {href : Text}
    (unskipped : Href.isSkipped rules.exclusions href = false) (proper : ¬ Refuses rules href) :
    ∃ target,
      Target.path? cwd rules.folders rules.root file (Href.split href).path = .ok target ∧
        ∀ base, Path.relativeHref? cwd base target = .ok (Path.relativeHref cwd base target) := by
  have written : ¬ (Href.split href).path.isEmpty = true := fun empty =>
    proper ⟨unskipped, (Href.path_eq_nil_iff unskipped).mp (List.isEmpty_iff.mp empty)⟩
  refine ⟨_, if_neg written, fun base => if_neg fun empty => ?_⟩
  exact Target.path_ne_nil _ _ _ _ _ (List.isEmpty_iff.mp empty)

end Normalize

/-! ## A run with a file that is refused -/

namespace Batch

/-- A run has done nothing with a file but fail on it, and it has done with the other files what the
run without that file does. -/
structure SetAside {σ : Type} [Files σ] (files : σ) (file : Text) (failure : Failure)
    (run without : List FileRecord × σ) : Prop where
  /-- The file reads as before. -/
  kept : Files.read run.2 file = Files.read files file
  /-- The file is not listed as modified. -/
  unmodified : file ∉ (summarize run.1).modified
  /-- The file is listed once with the failure, and with no other. -/
  once : (summarize run.1).failures.filter (fun failed => failed.1 = file) = [(file, failure)]
  /-- The other files are recorded in the same way, and all files end up the same. -/
  others : without = (run.1.filter (fun record => record.file ≠ file), run.2)
  /-- The totals are those of the other files, with one file more that has failed. -/
  totals : summarize without.1 =
    { summarize run.1 with
      total := (summarize run.1).total - 1
      failures := (summarize run.1).failures.filter fun failed => failed.1 ≠ file }

section Refused

variable {σ κ γ : Type} [Files σ] (frame : Frame σ κ γ) {rule : Rule σ} (write : Bool)
variable {files : σ} {list : List Text} {file content : Text} {failure : Failure}
variable (steady : Steady rule) (distinct : (list.map (frame.place files)).Nodup)
  (source : Files.read files file = .ok content)
  (stopped : (rule files file (extractLinks content) content.splitLines).result = .error failure)
  (member : file ∈ list)

include frame steady distinct source stopped member

theorem Frame.exists_turn_refused :
    ∃ before after sight notes, list = before ++ file :: after ∧
      processFile (processFiles rule write files before).2 rule write file =
        (FileRecord.failed file (some sight) [] notes failure,
          (processFiles rule write files before).2) := by
  rcases List.mem_iff_append.mp member with ⟨before, after, split⟩
  have readNow : Files.read (processFiles rule write files before).2 file = .ok content :=
    (frame.read_before rule write distinct split).trans source
  have stoppedNow : (rule (processFiles rule write files before).2 file (extractLinks content)
      content.splitLines).result = .error failure := by
    rw [frame.rule_eq steady (frame.alike_processFiles rule write files before)]
    exact stopped
  rcases exists_processFile_refused write readNow stoppedNow with ⟨sight, notes, refused⟩
  exact ⟨before, after, sight, notes, split, refused⟩

/-- A run without a file that its rule refuses records the others in the same way, and it leads to
the same files. -/
theorem Frame.processFiles_without :
    processFiles rule write files (list.filter fun other => other ≠ file) =
      ((processFiles rule write files list).1.filter fun record => record.file ≠ file,
        (processFiles rule write files list).2) := by
  refine Prod.ext ?records ?files
  case records =>
    rw [frame.processFiles_fst steady (distinct.sublist (List.filter_sublist.map _)),
      frame.processFiles_fst steady distinct, List.filter_map]
    simp only [Function.comp_def, file_processFile]
  case files =>
    rcases frame.exists_turn_refused write steady distinct source stopped member with
      ⟨before, after, _, _, split, refused⟩
    -- The file stands in the list once, so it is none of those before it or after it.
    have once : (before ++ file :: after).Nodup := split ▸ List.Nodup.of_map _ distinct
    have apart := (List.nodup_cons.mp (List.nodup_middle.mp once)).1
    have remaining : (before ++ file :: after).filter (fun other => other ≠ file) =
        before ++ after := by
      rw [List.filter_append, List.filter_cons_of_neg (by simp), ← List.filter_append]
      exact List.filter_eq_self.mpr fun other among =>
        decide_eq_true fun same => apart (same ▸ among)
    rw [split, remaining, processFiles_append, processFiles_append, processFiles_cons, refused]

theorem Frame.setAside :
    SetAside files file failure (processFiles rule write files list)
      (processFiles rule write files (list.filter fun other => other ≠ file)) := by
  have once : list.Nodup := List.Nodup.of_map _ distinct
  have others := frame.processFiles_without write steady distinct source stopped member
  rcases exists_processFile_refused write source stopped with ⟨sight, notes, refused⟩
  have own : ∀ record ∈ (processFiles rule write files list).1, record.file = file →
      record = FileRecord.failed file (some sight) [] notes failure := by
    intro record among same
    rw [frame.record_eq steady distinct among same, refused]
  constructor
  case kept =>
    rcases frame.exists_turn_refused write steady distinct source stopped member with
      ⟨before, after, _, _, split, turn⟩
    rw [frame.read_after rule write distinct split, turn,
      frame.read_before rule write distinct split]
  case unmodified =>
    refine not_mem_modified_of_failed fun record among same => ⟨failure, ?_⟩
    rw [own record among same]
    rfl
  case once =>
    rw [filter_failures _ fun name => decide (name = file),
      frame.processFiles_fst steady distinct, List.filter_map]
    simp only [Function.comp_def, file_processFile]
    rw [List.filter_eq, List.count_eq_one_of_mem once member, List.replicate_one,
      List.map_singleton, refused]
    rfl
  case others => exact others
  case totals =>
    have fewer : (list.filter fun other => other ≠ file).length = list.length - 1 := by
      rw [← List.length_erase_of_mem member, once.erase_eq_filter]
      refine congrArg List.length (List.filter_congr fun other _ => ?_)
      rw [Bool.eq_iff_iff, decide_eq_true_eq, bne_iff_ne]
    have counted := length_processFiles rule write files (list.filter fun other => other ≠ file)
    rw [others, fewer, ← length_processFiles rule write files list] at counted
    rw [others, summarize_filter, counted]
    · rfl
    · intro record among same
      rw [own record among same]
      exact ⟨rfl, rfl⟩

end Refused

/-- A normalization over a store is stopped by links that begin with their query, and by nothing
else: of any other link that may be touched there is a target, and a relative form of it from
anywhere.  Of the files that a path names those with such a link are set aside, each with the one
failure.  For that the keys of the store must be in normal form, as they are where a store is made
from files. -/
theorem normalizing_refused (store : Store) (cwd : Text) (rules : Rules) :
    (∀ file links failure,
        (Normalize.generate (Files.present store) cwd rules file links).result = .error failure ↔
          failure = .emptyLinkPath ∧ ∃ link ∈ links, Normalize.Refuses rules link.href) ∧
      Failure.message .emptyLinkPath = "linkPath is undefined" ∧
      (∀ file href, Href.isSkipped rules.exclusions href = false →
        ((Href.split href).path = [] ↔ Normalize.Refuses rules href) ∧
          (¬ Normalize.Refuses rules href → ∃ target,
            Target.path? cwd rules.folders rules.root file (Href.split href).path = .ok target ∧
              ∀ base, Path.relativeHref? cwd base target =
                .ok (Path.relativeHref cwd base target))) ∧
      ((∀ key ∈ store.keys, ∃ path, key = Path.normalize path) →
        ∀ write path found, Files.collect store path = .ok found →
          let run := processFiles (normalizing cwd rules) write store found
          processPath store (normalizing cwd rules) write path = (.ok run.1, run.2) ∧
            ∀ file ∈ found, ∀ content, store.read file = .ok content →
              (∃ link ∈ extractLinks content, Normalize.Refuses rules link.href) →
              SetAside store file .emptyLinkPath run
                (processFiles (normalizing cwd rules) write store
                  (found.filter fun other => other ≠ file))) := by
  refine ⟨fun file links failure => Normalize.generate_eq_error_iff, rfl,
    fun file href unskipped => ⟨?_, Normalize.exists_target cwd file unskipped⟩, ?_⟩
  · rw [Href.path_eq_nil_iff unskipped]
    exact ⟨fun begins => ⟨unskipped, begins⟩, fun refused => refused.2⟩
  · intro normal write path found collected run
    refine ⟨by rw [processPath, collected], fun file member content source refused => ?_⟩
    have steady : Steady (normalizing cwd rules : Rule Store) :=
      Task.steady_rule cwd (.normalizing rules)
    have stopped : (normalizing cwd rules store file (extractLinks content)
        content.splitLines).result = .error .emptyLinkPath :=
      Normalize.generate_eq_error_iff.mpr ⟨rfl, refused⟩
    exact storeFrame.setAside write steady (Store.nodup_collect normal collected) source stopped
      member

/-- A file with a link that could be shortened and one that is only a query, and a file of which
the link is shortened. -/
theorem normalizing_refused_query :
    let store := Store.ofFiles "/d"
      [("/d/a.md", "[x](../d/b.md) [y](?q#z)"), ("/d/b.md", "[z](../d/a.md)")] []
    let rules : Rules := { root := "/d", folders := [], exclusions := [] }
    let run := processFiles (normalizing "/d" rules) true store ["./a.md", "./b.md"]
    processPath store (normalizing "/d" rules) true "." = (.ok run.1, run.2) ∧
      SetAside store "./a.md" .emptyLinkPath run
        (processFiles (normalizing "/d" rules) true store ["./b.md"]) ∧
      (summarize run.1).modified = ["./b.md"] ∧
      run.2.get? "/d/b.md" = some ("[z](a.md)" : Text) ∧
      (∃ target, Target.path? "/d" [] "/d" "/d/a.md" "b.md" = .ok target) := by
  intro store rules run
  have collected : Files.collect store "." = .ok ["./a.md", "./b.md"] := by decide +kernel
  rcases normalizing_refused store "/d" rules with ⟨_, _, targets, runs⟩
  rcases runs (Store.normal_ofFiles _ _ _) true "." _ collected with ⟨whole, each⟩
  have refused : ∃ link ∈ extractLinks "[x](../d/b.md) [y](?q#z)",
      Normalize.Refuses rules link.href := by decide +kernel
  rcases (targets "/d/a.md" "b.md" (by decide +kernel)).2 (by decide +kernel) with ⟨target, led, _⟩
  exact ⟨whole, each "./a.md" List.mem_cons_self _ (by decide +kernel) refused, by decide +kernel,
    by decide +kernel, target, led⟩

end Batch
end Crosslink

import Crosslink.Proofs.Files.Store
import Crosslink.Proofs.Files.Walk
import Crosslink.Proofs.Path.Render

namespace Crosslink

/-!
The files that a walk finds.  They are the markdown files to which listings lead, from the listing
of the directory that the walk sets out from down through those of subdirectories.  How many levels
a walk may go down plays no part in what it finds, as long as they are enough for it to come to
its end.
-/

namespace Files

variable {σ : Type} [Files σ] {files : σ}

/-- A listing names a markdown file, or a subdirectory whose listing leads to the file. -/
inductive LeadsTo (files : σ) : Text → Text → Prop
  | child {directory : Text} {entries : List Entry} {entry : Entry}
      (listed : list files directory = .ok entries) (member : entry ∈ entries)
      (flat : entry.isDirectory = false)
      (markdown : entry.name.endsWith markdownSuffix = true) :
      LeadsTo files directory (Path.under directory entry.name)
  | through {directory file : Text} {entries : List Entry} {entry : Entry}
      (listed : list files directory = .ok entries) (member : entry ∈ entries)
      (inside : entry.isDirectory = true)
      (leads : LeadsTo files (Path.under directory entry.name) file) :
      LeadsTo files directory file

/-! ## One directory -/

variable {below more : Text → Except Failure (List Text)} {directory file : Text}
variable {entries : List Entry} {found : List Text}

theorem mem_gather_iff (gathered : gather below directory entries = .ok found) :
    file ∈ found ↔ ∃ entry ∈ entries, ∃ here, findIn below directory entry = .ok here ∧
      file ∈ here := by
  induction entries generalizing found with
  | nil =>
      cases gathered
      simp
  | cons entry rest inductionHypothesis =>
      rcases gather_cons_eq_ok gathered with ⟨here, later, first, behind, rfl⟩
      rw [List.mem_append, inductionHypothesis behind]
      constructor
      · rintro (inHere | ⟨other, among, made, inOther⟩)
        · exact ⟨entry, List.mem_cons_self, here, first, inHere⟩
        · exact ⟨other, List.mem_cons_of_mem entry among, made, inOther⟩
      · rintro ⟨other, member, there, made, inThere⟩
        rcases List.mem_cons.mp member with same | among
        · rw [same, first] at made
          cases made
          exact Or.inl inThere
        · exact Or.inr ⟨other, among, there, made, inThere⟩

/-- Gathering comes to the same end where the work below subdirectories does. -/
theorem gather_mono
    (further : ∀ {path found}, below path = .ok found → more path = .ok found)
    (gathered : gather below directory entries = .ok found) :
    gather more directory entries = .ok found := by
  induction entries generalizing found with
  | nil => exact gathered
  | cons entry rest inductionHypothesis =>
      rcases gather_cons_eq_ok gathered with ⟨here, later, first, behind, rfl⟩
      have again : findIn more directory entry = .ok here := by
        unfold findIn at first ⊢
        split at first
        · next inside => exact (if_pos inside).trans (further first)
        · next flat => exact (if_neg flat).trans first
      rw [gather_cons, again, inductionHypothesis behind]
      rfl

/-! ## Walks -/

variable {levels : Nat}

theorem mem_walkWithin_iff (walked : walkWithin files levels directory = .ok found) :
    file ∈ found ↔ LeadsTo files directory file := by
  induction levels generalizing directory found file with
  | zero => cases walked
  | succ levels inductionHypothesis =>
      rcases walkWithin_succ_eq_ok walked with ⟨entries, listed, gathered⟩
      rw [mem_gather_iff gathered]
      constructor
      · rintro ⟨entry, member, here, made, inHere⟩
        rcases cases_of_mem_findIn made inHere with ⟨inside, descended⟩ | ⟨flat, markdown, rfl⟩
        · exact .through listed member inside ((inductionHypothesis descended).mp inHere)
        · exact .child listed member flat markdown
      · intro leads
        cases leads with
        | child again member flat markdown =>
            cases listed.symm.trans again
            refine ⟨_, member, _, ?_, List.mem_singleton_self _⟩
            rw [findIn, if_neg (Bool.eq_false_iff.mp flat), if_pos markdown]
        | @through _ _ _ entry again member inside leads =>
            cases listed.symm.trans again
            rcases exists_findIn_of_gather gathered member with ⟨here, made⟩
            have descended := made
            rw [findIn, if_pos inside] at descended
            exact ⟨entry, member, here, made, (inductionHypothesis descended).mpr leads⟩

/-- A walk that comes to its end comes to the same end with more levels. -/
theorem walkWithin_mono (walked : walkWithin files levels directory = .ok found) {further : Nat}
    (deeper : levels ≤ further) : walkWithin files further directory = .ok found := by
  induction levels generalizing directory found further with
  | zero => cases walked
  | succ levels inductionHypothesis =>
      rcases walkWithin_succ_eq_ok walked with ⟨entries, listed, gathered⟩
      cases further with
      | zero => exact absurd deeper (Nat.not_succ_le_zero levels)
      | succ further =>
          rw [walkWithin_succ, listed]
          exact gather_mono
            (fun made => inductionHypothesis made (Nat.le_of_succ_le_succ deeper)) gathered

/-! ## Where files are found -/

/-- The file is a child of a directory of which something holds. -/
def FoundIn (files : σ) (Holds : Text → Prop) (file : Text) : Prop :=
  ∃ directory entries entry, Holds directory ∧ list files directory = .ok entries ∧
    entry ∈ entries ∧ entry.isDirectory = false ∧ file = Path.under directory entry.name

theorem LeadsTo.foundIn {Holds : Text → Prop} (leads : LeadsTo files directory file)
    (inherited : ∀ {directory entries entry}, Holds directory → list files directory = .ok entries →
      entry ∈ entries → entry.isDirectory = true → Holds (Path.under directory entry.name))
    (start : Holds directory) : FoundIn files Holds file := by
  induction leads with
  | child listed member flat _ => exact ⟨_, _, _, start, listed, member, flat, rfl⟩
  | through listed member inside _ inductionHypothesis =>
      exact inductionHypothesis (inherited start listed member inside)

/-- What goes over from a directory to its subdirectories holds of each directory in which a walk
finds a file. -/
theorem foundIn_of_walkWithin {Holds : Text → Prop}
    (inherited : ∀ {directory entries entry}, Holds directory → list files directory = .ok entries →
      entry ∈ entries → entry.isDirectory = true → Holds (Path.under directory entry.name))
    (start : Holds directory) (walked : walkWithin files levels directory = .ok found) :
    ∀ file ∈ found, FoundIn files Holds file :=
  fun _ member => ((mem_walkWithin_iff walked).mp member).foundIn inherited start

theorem walkWithin_forall (Holds : Text → Prop)
    (inherited : ∀ directory name, Holds directory → Holds (Path.under directory name))
    (start : Holds directory) (walked : walkWithin files levels directory = .ok found) :
    ∀ file ∈ found, Holds file := by
  intro file member
  have leads := (mem_walkWithin_iff walked).mp member
  rcases leads.foundIn (fun above _ _ _ => inherited _ _ above) start with
    ⟨above, _, entry, holds, _, _, _, rfl⟩
  exact inherited above entry.name holds

theorem collect_forall (Holds : Text → Prop) {path : Text}
    (inherited : ∀ directory name, Holds directory → Holds (Path.under directory name))
    (start : Holds path) (collected : collect files path = .ok found) :
    ∀ file ∈ found, Holds file := by
  unfold collect at collected
  split at collected
  · split at collected
    · split at collected
      · cases collected
        exact fun file member => List.mem_singleton.mp member ▸ start
      · cases collected
      · cases collected
    · cases collected
  · exact walkWithin_forall Holds inherited start collected

end Files

/-!
## What lies below a directory, as texts

The paths below a directory begin with its path and a slash, those below the root with a slash only,
however many slashes the root has.  So a root with two slashes counts all absolute paths as its own,
and the root with one counts those that begin with two.  Behind the names of a directory neither
happens: what begins as the paths below it do has its root, and goes on with its names.
-/

namespace Store

variable {names : List Text}

/-- What is written from the names of a place and at most two slashes is its own key. -/
theorem resolve_render (store : Store) (isPlace : Path.IsPlace names)
    {slashes : Nat} (few : slashes + 1 ≤ 2) :
    store.resolve (Path.render (slashes + 1) names) = Path.render (slashes + 1) names := by
  have absolute : Path.isAbsolute (Path.render (slashes + 1) names) = true := rfl
  rw [resolve, Path.absolute, Path.under, if_pos absolute]
  exact Path.normalize_render isPlace few

theorem isDirectory_of_below {store : Store} {directory key : Text} (member : key ∈ store.keys)
    (begins : below directory <+: key) : store.isDirectory directory = true := by
  rw [isDirectory_eq]
  split
  · exact Bool.not_eq_true' _ ▸ List.isEmpty_eq_false_iff_exists_mem.mpr ⟨key, member⟩
  · exact List.any_eq_true.mpr ⟨key, member, Text.startsWith_iff.mpr begins⟩

theorem exists_below_of_isDirectory {store : Store} {directory : Text} (other : directory ≠ ['/'])
    (there : store.isDirectory directory = true) :
    ∃ key ∈ store.keys, below directory <+: key := by
  rw [isDirectory_eq, if_neg other] at there
  rcases List.any_eq_true.mp there with ⟨key, member, begins⟩
  exact ⟨key, member, Text.startsWith_iff.mp begins⟩

theorem below_render (isStep : ∀ name ∈ names, Path.IsStep name) (slashes : Nat) :
    below (Path.render (slashes + 1) names) =
      if names = [] then ['/'] else Path.render (slashes + 1) names ++ ['/'] := by
  rw [below]
  split
  · next top => rw [top, Path.render_nil, Path.dropEndWhile_replicate, List.nil_append]
  · next onward => rw [Path.dropEndWhile_render isStep onward]

theorem below_render_isPrefix (isStep : ∀ name ∈ names, Path.IsStep name) (slashes : Nat)
    {more : List Text} (further : more ≠ []) :
    below (Path.render (slashes + 1) names) <+: Path.render (slashes + 1) (names ++ more) := by
  rw [below_render isStep, Path.render_append slashes names further]
  split
  · exact ⟨_, rfl⟩
  · exact ⟨Text.join ['/'] more, by rw [List.append_assoc, List.singleton_append]⟩

theorem names_of_below (isStep : ∀ name ∈ names, Path.IsStep name) (onward : names ≠ [])
    {others : List Text} (others_isStep : ∀ name ∈ others, Path.IsStep name)
    {slashes also : Nat} (few : slashes + 1 ≤ 2) (few' : also + 1 ≤ 2) {rest : Text}
    (begins : Path.render (also + 1) others = below (Path.render (slashes + 1) names) ++ rest) :
    also = slashes ∧ others = names ++ rest.splitOn '/' := by
  have written : Path.render (also + 1) others =
      List.replicate (slashes + 1) '/' ++ (Text.join ['/'] names ++ '/' :: rest) := by
    rw [begins, below_render isStep, if_neg onward, Path.render_succ, List.append_assoc,
      List.append_assoc, List.singleton_append]
  have nonempty : Text.join ['/'] names ≠ [] := fun empty =>
    onward ((Text.join_eq_nil_iff fun name member => (isStep name member).nonempty).mp empty)
  have relative : Path.isAbsolute (Text.join ['/'] names ++ '/' :: rest) = false := by
    rw [Path.isAbsolute_append nonempty, Path.isAbsolute_join isStep]
  have roots := Path.rootSlashes_render few' others_isStep
  rw [written, Path.rootSlashes_replicate_append few relative] at roots
  have same : also = slashes := (Nat.succ.inj roots).symm
  refine ⟨same, ?_⟩
  rw [Path.render_succ, same] at written
  have joined := List.append_cancel_left written
  have others_onward : others ≠ [] := by
    rintro rfl
    exact List.append_ne_nil_of_right_ne_nil _ (List.cons_ne_nil _ _) joined.symm
  have whole : ∀ name ∈ names, '/' ∉ name := fun name member => (isStep name member).whole
  have others_whole : ∀ name ∈ others, '/' ∉ name := fun name member =>
    (others_isStep name member).whole
  rw [← Text.splitOn_join others_onward others_whole, joined, Text.splitOn_append_cons,
    Text.splitOn_join onward whole]

end Store

end Crosslink

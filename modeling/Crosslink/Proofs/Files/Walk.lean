import Crosslink.Files.Service
import Mathlib.Data.List.Nodup

namespace Crosslink
namespace Files

/-!
What a walk finds.  Where every child of a directory lies right below it, each in a place of
its own, a walk finds no place twice, and it goes deep enough: only a directory that cannot be
listed stops it.
-/

variable {σ : Type} [Files σ] {files : σ}

/-! ## One directory -/

def findIn (below : Text → Except Failure (List Text)) (directory : Text) (entry : Entry) :
    Except Failure (List Text) :=
  if entry.isDirectory then below (Path.under directory entry.name)
  else if entry.name.endsWith markdownSuffix then .ok [Path.under directory entry.name]
  else .ok []

theorem findIn_eq_ok {below : Text → Except Failure (List Text)} {directory : Text} {entry : Entry}
    {found : List Text} (made : findIn below directory entry = .ok found) :
    (entry.isDirectory = true ∧ below (Path.under directory entry.name) = .ok found) ∨
      (entry.isDirectory = false ∧ entry.name.endsWith markdownSuffix = true ∧
        found = [Path.under directory entry.name]) ∨ found = [] := by
  unfold findIn at made
  split at made
  · next inside => exact Or.inl ⟨inside, made⟩
  · next outside =>
      split at made
      · next markdown =>
          cases made
          exact Or.inr (Or.inl ⟨Bool.eq_false_iff.mpr outside, markdown, rfl⟩)
      · cases made
        exact Or.inr (Or.inr rfl)

/-- What is found in a child has been found below it, or is the child itself. -/
theorem cases_of_mem_findIn {below : Text → Except Failure (List Text)} {directory : Text}
    {entry : Entry} {found : List Text} {file : Text}
    (made : findIn below directory entry = .ok found) (member : file ∈ found) :
    (entry.isDirectory = true ∧ below (Path.under directory entry.name) = .ok found) ∨
      (entry.isDirectory = false ∧ entry.name.endsWith markdownSuffix = true ∧
        file = Path.under directory entry.name) := by
  rcases findIn_eq_ok made with below | ⟨flat, markdown, rfl⟩ | rfl
  · exact Or.inl below
  · exact Or.inr ⟨flat, markdown, List.mem_singleton.mp member⟩
  · exact absurd member List.not_mem_nil

theorem gather_cons (below : Text → Except Failure (List Text)) (directory : Text) (entry : Entry)
    (rest : List Entry) :
    gather below directory (entry :: rest) = (do
      let here ← findIn below directory entry
      let more ← gather below directory rest
      return here ++ more) := by
  rw [gather, findIn]
  split
  · rfl
  · split
    · rfl
    · rfl

theorem gather_cons_eq_ok {below : Text → Except Failure (List Text)} {directory : Text}
    {entry : Entry} {rest : List Entry} {found : List Text}
    (gathered : gather below directory (entry :: rest) = .ok found) :
    ∃ here more, findIn below directory entry = .ok here ∧
      gather below directory rest = .ok more ∧ found = here ++ more := by
  rw [gather_cons] at gathered
  cases first : findIn below directory entry with
  | error failure =>
      rw [first] at gathered
      cases gathered
  | ok here =>
      cases later : gather below directory rest with
      | error failure =>
          rw [first, later] at gathered
          cases gathered
      | ok more =>
          rw [first, later] at gathered
          cases gathered
          exact ⟨here, more, rfl, rfl, rfl⟩

/-- Gathering that comes to its end has looked at every child. -/
theorem exists_findIn_of_gather {below : Text → Except Failure (List Text)} {directory : Text}
    {entries : List Entry} {found : List Text} {entry : Entry}
    (gathered : gather below directory entries = .ok found) (member : entry ∈ entries) :
    ∃ here, findIn below directory entry = .ok here := by
  induction entries generalizing found with
  | nil => exact absurd member List.not_mem_nil
  | cons first rest inductionHypothesis =>
      rcases gather_cons_eq_ok gathered with ⟨here, more, made, later, _⟩
      rcases List.mem_cons.mp member with same | behind
      · exact ⟨here, same ▸ made⟩
      · exact inductionHypothesis later behind

theorem gather_eq_error {below : Text → Except Failure (List Text)} {directory : Text}
    {entries : List Entry} {failure : Failure}
    (stopped : gather below directory entries = .error failure) :
    ∃ entry ∈ entries, entry.isDirectory = true ∧
      below (Path.under directory entry.name) = .error failure := by
  induction entries with
  | nil => cases stopped
  | cons entry rest inductionHypothesis =>
      rw [gather_cons] at stopped
      cases first : findIn below directory entry with
      | error other =>
          rw [first] at stopped
          cases stopped
          unfold findIn at first
          split at first
          · next inside => exact ⟨entry, List.mem_cons_self, inside, first⟩
          · split at first
            · cases first
            · cases first
      | ok here =>
          cases later : gather below directory rest with
          | error other =>
              rw [first, later] at stopped
              cases stopped
              rcases inductionHypothesis later with ⟨other, member, inside, failed⟩
              exact ⟨other, List.mem_cons_of_mem entry member, inside, failed⟩
          | ok more =>
              rw [first, later] at stopped
              cases stopped

theorem walkWithin_succ (files : σ) (levels : Nat) (directory : Text) :
    walkWithin files (levels + 1) directory = (do
      let entries ← list files directory
      gather (walkWithin files levels) directory entries) := rfl

theorem walkWithin_succ_eq_ok {levels : Nat} {directory : Text} {found : List Text}
    (walked : walkWithin files (levels + 1) directory = .ok found) :
    ∃ entries, list files directory = .ok entries ∧
      gather (walkWithin files levels) directory entries = .ok found := by
  rw [walkWithin_succ] at walked
  cases listed : list files directory with
  | error failure =>
      rw [listed] at walked
      cases walked
  | ok entries =>
      rw [listed] at walked
      exact ⟨entries, rfl, walked⟩

theorem walkWithin_succ_eq_error {levels : Nat} {directory : Text} {failure : Failure}
    (stopped : walkWithin files (levels + 1) directory = .error failure) :
    list files directory = .error failure ∨
      ∃ entries entry, list files directory = .ok entries ∧ entry ∈ entries ∧
        entry.isDirectory = true ∧
        walkWithin files levels (Path.under directory entry.name) = .error failure := by
  rw [walkWithin_succ] at stopped
  cases listed : list files directory with
  | error other =>
      rw [listed] at stopped
      cases stopped
      exact Or.inl rfl
  | ok entries =>
      rw [listed] at stopped
      rcases gather_eq_error stopped with ⟨entry, member, inside, failed⟩
      exact Or.inr ⟨entries, entry, rfl, member, inside, failed⟩

theorem walkWithin_congr {other : σ} (same : list other = list files) (levels : Nat) :
    walkWithin other levels = walkWithin files levels := by
  induction levels with
  | zero => rfl
  | succ levels inductionHypothesis =>
      funext directory
      rw [walkWithin_succ, walkWithin_succ, inductionHypothesis, same]

/-- The files that a path names depend on what is there only. -/
theorem collect_congr {other : σ} (listed : list other = list files)
    (there : present other = present files) (deep : depth other = depth files) :
    collect other = collect files := by
  funext path
  rw [collect, collect, walk, walk, walkWithin_congr listed, deep, there]

/-! ## Places -/

/-- The children of a directory lie right below it, each in a place of its own. -/
structure Layout (files : σ) (place : Text → List Text) : Prop where
  /-- No two children have one name. -/
  distinct : ∀ {directory entries}, list files directory = .ok entries →
    (entries.map (·.name)).Nodup
  /-- Where the children lie that a walk looks at. -/
  below : ∀ {directory entries entry}, list files directory = .ok entries → entry ∈ entries →
    entry.isDirectory = true ∨ entry.name.endsWith markdownSuffix = true →
    place (Path.under directory entry.name) = place directory ++ [entry.name]
  /-- A directory with a subdirectory does not lie at the lowest level. -/
  shallow : ∀ {directory entries entry}, list files directory = .ok entries → entry ∈ entries →
    entry.isDirectory = true → (place directory).length < depth files

/-- Two places go the same way up to a name of each, and these names are related. -/
def PartBy (related : Text → Text → Prop) (first second : List Text) : Prop :=
  ∃ start name other, start ++ [name] <+: first ∧ start ++ [other] <+: second ∧
    related name other

theorem PartBy.ne {related : Text → Text → Prop} (strict : ∀ name, ¬ related name name)
    {first second : List Text} (parts : PartBy related first second) : first ≠ second := by
  rintro rfl
  rcases parts with ⟨start, name, other, begins, begins', apart⟩
  have equally : (start ++ [name]).length = (start ++ [other]).length := by
    rw [List.length_append, List.length_append, List.length_singleton, List.length_singleton]
  have agree : start ++ [name] = start ++ [other] :=
    (List.prefix_of_prefix_length_le begins begins' (Nat.le_of_eq equally)).eq_of_length equally
  rw [List.singleton_inj.mp (List.append_cancel_left agree)] at apart
  exact strict other apart

section Places

variable {place : Text → List Text} {related : Text → Text → Prop}

private theorem findIn_below {below : Text → Except Failure (List Text)}
    (inner : ∀ {path found}, below path = .ok found →
      (found.map place).Pairwise (PartBy related) ∧ ∀ file ∈ found, place path <+: place file)
    {directory : Text} {start : List Text} {entry : Entry} {found : List Text}
    (lies : entry.isDirectory = true ∨ entry.name.endsWith markdownSuffix = true →
      place (Path.under directory entry.name) = start ++ [entry.name])
    (made : findIn below directory entry = .ok found) :
    (found.map place).Pairwise (PartBy related) ∧
      ∀ file ∈ found, start ++ [entry.name] <+: place file := by
  rcases findIn_eq_ok made with ⟨inside, descended⟩ | ⟨_, markdown, rfl⟩ | rfl
  · rw [← lies (Or.inl inside)]
    exact inner descended
  · refine ⟨List.pairwise_singleton _ _, fun file member => ?_⟩
    rw [List.mem_singleton.mp member]
    exact lies (Or.inr markdown) ▸ List.prefix_rfl
  · exact ⟨List.Pairwise.nil, fun _ member => absurd member List.not_mem_nil⟩

private theorem gather_below {below : Text → Except Failure (List Text)}
    (inner : ∀ {path found}, below path = .ok found →
      (found.map place).Pairwise (PartBy related) ∧ ∀ file ∈ found, place path <+: place file)
    {directory : Text} {start : List Text} {entries : List Entry} {found : List Text}
    (listed : (entries.map (·.name)).Pairwise related)
    (lies : ∀ entry ∈ entries,
      entry.isDirectory = true ∨ entry.name.endsWith markdownSuffix = true →
      place (Path.under directory entry.name) = start ++ [entry.name])
    (gathered : gather below directory entries = .ok found) :
    (found.map place).Pairwise (PartBy related) ∧
      ∀ file ∈ found, ∃ entry ∈ entries, start ++ [entry.name] <+: place file := by
  induction entries generalizing found with
  | nil =>
      cases gathered
      exact ⟨List.Pairwise.nil, fun _ member => absurd member List.not_mem_nil⟩
  | cons entry rest inductionHypothesis =>
      rcases gather_cons_eq_ok gathered with ⟨here, more, first, later, rfl⟩
      have parts := List.pairwise_cons.mp listed
      rcases findIn_below inner (lies entry List.mem_cons_self) first with ⟨herePart, hereIn⟩
      rcases inductionHypothesis parts.2
        (fun other member => lies other (List.mem_cons_of_mem entry member)) later with
        ⟨morePart, moreIn⟩
      constructor
      · rw [List.map_append]
        refine List.pairwise_append.mpr ⟨herePart, morePart, ?_⟩
        intro spot inHere other inMore
        rcases List.mem_map.mp inHere with ⟨file, member, rfl⟩
        rcases List.mem_map.mp inMore with ⟨file', member', rfl⟩
        rcases moreIn file' member' with ⟨entry', among, begins'⟩
        exact ⟨start, entry.name, entry'.name, hereIn file member, begins',
          parts.1 entry'.name (List.mem_map_of_mem among)⟩
      · intro file member
        rcases List.mem_append.mp member with inHere | inMore
        · exact ⟨entry, List.mem_cons_self, hereIn file inHere⟩
        · rcases moreIn file inMore with ⟨other, among, begins⟩
          exact ⟨other, List.mem_cons_of_mem entry among, begins⟩

variable (listed : ∀ {directory entries}, list files directory = .ok entries →
    (entries.map (·.name)).Pairwise related)
  (below : ∀ {levels directory found entries entry},
    walkWithin files levels directory = .ok found → list files directory = .ok entries →
    entry ∈ entries → entry.isDirectory = true ∨ entry.name.endsWith markdownSuffix = true →
    place (Path.under directory entry.name) = place directory ++ [entry.name])

include listed below

/-- What a walk finds lies below its directory, and comes in the order in which children are
listed. -/
theorem pairwise_walkWithin {levels : Nat} {directory : Text} {found : List Text}
    (walked : walkWithin files levels directory = .ok found) :
    (found.map place).Pairwise (PartBy related) ∧ ∀ file ∈ found, place directory <+: place file := by
  induction levels generalizing directory found with
  | zero => cases walked
  | succ levels inductionHypothesis =>
      rcases walkWithin_succ_eq_ok walked with ⟨entries, made, gathered⟩
      rcases gather_below inductionHypothesis (listed made)
        (fun entry member looked => below walked made member looked) gathered with
        ⟨parts, inside⟩
      refine ⟨parts, fun file member => ?_⟩
      rcases inside file member with ⟨entry, _, begins⟩
      exact (List.prefix_append _ _).trans begins

private theorem nodup_of_collect (strict : ∀ name, ¬ related name name) {path : Text}
    {found : List Text} (collected : collect files path = .ok found) : (found.map place).Nodup := by
  unfold collect at collected
  split at collected
  · split at collected
    · split at collected
      · cases collected
        exact List.nodup_singleton _
      · cases collected
      · cases collected
    · cases collected
  · exact (pairwise_walkWithin listed below collected).1.imp (PartBy.ne strict)

end Places

variable {place : Text → List Text}

/-- A walk with enough levels is stopped only by a directory that cannot be listed, one of which
holds what goes over from a directory to its subdirectories. -/
theorem Layout.exists_unlisted (layout : Layout files place) (Holds : Text → Prop)
    (inherited : ∀ {directory entries entry}, Holds directory →
      list files directory = .ok entries → entry ∈ entries → entry.isDirectory = true →
      Holds (Path.under directory entry.name))
    {levels : Nat} {directory : Text} {failure : Failure} (some : levels ≠ 0)
    (room : depth files < levels + (place directory).length) (start : Holds directory)
    (stopped : Files.walkWithin files levels directory = .error failure) :
    ∃ path, Holds path ∧ list files path = .error failure := by
  induction levels generalizing directory with
  | zero => exact absurd rfl some
  | succ levels inductionHypothesis =>
      rcases walkWithin_succ_eq_error stopped with here | ⟨entries, entry, listed, member, inside,
        failed⟩
      · exact ⟨directory, start, here⟩
      · have shallow := layout.shallow listed member inside
        refine inductionHypothesis ?_ ?_ (inherited start listed member inside) failed
        · omega
        · rw [layout.below listed member (Or.inl inside), List.length_append,
            List.length_singleton]
          omega

theorem Layout.collect (layout : Layout files place) {path : Text} {found : List Text}
    (collected : Files.collect files path = .ok found) : (found.map place).Nodup :=
  nodup_of_collect layout.distinct (fun _ listed member looked => layout.below listed member looked)
    (fun _ different => different rfl) collected

/-- The collecting of files is stopped by a directory that cannot be listed, or by not being
able to tell what is there. -/
theorem Layout.collect_eq_error (layout : Layout files place) {path : Text} {failure : Failure}
    (stopped : Files.collect files path = .error failure) :
    (∃ directory, list files directory = .error failure) ∨
      present files path = .error failure := by
  have walkStopped {other : Failure} (failed : walk files path = .error other) :
      ∃ directory, list files directory = .error other := by
    rcases layout.exists_unlisted (fun _ => True) (fun _ _ _ _ => trivial)
      (Nat.succ_ne_zero _) (by omega) trivial failed with ⟨directory, _, unlisted⟩
    exact ⟨directory, unlisted⟩
  unfold Files.collect at stopped
  split at stopped
  · next other failed =>
      split at stopped
      · split at stopped
        · cases stopped
        · cases stopped
          exact Or.inl (walkStopped failed)
        · next missing =>
            cases stopped
            exact Or.inr missing
      · cases stopped
        exact Or.inl (walkStopped failed)
  · next failed => exact Or.inl (walkStopped stopped)

/-! ## Walks that do not end -/

/-- The name leads from a directory to the directory itself. -/
def IsIdle (name : Text) : Prop :=
  name = [] ∨ name = Path.here

/-- The children of a directory lie right below it, each in a place of its own, unless one of them
stands for the directory itself, where a walk has no end. -/
structure Spread (files : σ) (place : Text → List Text) : Prop where
  /-- No two children have one name. -/
  distinct : ∀ {directory entries}, list files directory = .ok entries →
    (entries.map (·.name)).Nodup
  /-- Where the children lie that lead on. -/
  below : ∀ {directory entries entry}, list files directory = .ok entries → entry ∈ entries →
    ¬ IsIdle entry.name →
    place (Path.under directory entry.name) = place directory ++ [entry.name]
  /-- A directory that is read inside itself has the children that it has. -/
  idle : ∀ {directory name entries}, IsIdle name → list files directory = .ok entries →
    list files (Path.under directory name) = .ok entries

/-- A walk that comes to its end meets no directory that stands for the one it lies in. -/
theorem Spread.not_isIdle (spread : Spread files place) {levels : Nat} {directory : Text}
    {found : List Text} {entries : List Entry} {entry : Entry}
    (walked : walkWithin files levels directory = .ok found)
    (listed : list files directory = .ok entries) (member : entry ∈ entries)
    (inside : entry.isDirectory = true) : ¬ IsIdle entry.name := by
  intro idle
  induction levels generalizing directory found with
  | zero => cases walked
  | succ levels inductionHypothesis =>
      rcases walkWithin_succ_eq_ok walked with ⟨again, relisted, gathered⟩
      rw [listed] at relisted
      cases relisted
      rcases exists_findIn_of_gather gathered member with ⟨here, made⟩
      rw [findIn, if_pos inside] at made
      exact inductionHypothesis made (spread.idle idle listed)

theorem Spread.collect (spread : Spread files place) {path : Text} {found : List Text}
    (collected : Files.collect files path = .ok found) : (found.map place).Nodup := by
  refine nodup_of_collect spread.distinct (fun walked listed member looked => ?_)
    (fun _ different => different rfl) collected
  refine spread.below listed member ?_
  rcases looked with inside | markdown
  · exact spread.not_isIdle walked listed member inside
  · rintro (empty | here)
    · rw [empty] at markdown
      cases markdown
    · rw [here] at markdown
      cases markdown

end Files
end Crosslink

import Crosslink.Proofs.Files.Descent
import Crosslink.Proofs.Files.Shelf
import Crosslink.Proofs.Path.Settled

namespace Crosslink

/-!
Walks over trees whose paths are of ordinary length.  A path grows on a walk by the names that it
is led through, and these are names on a way to some node; so a walk that sets out from a path
short enough to leave room for the longest way meets no path that is too long.
-/

namespace Path

/-- A path that is written out takes no fewer bytes than its slashes and names. -/
theorem length_le_render (slashes : Nat) (names : List Text) :
    Utf8.length (List.replicate slashes '/' ++ Text.join ['/'] names) ≤
      Utf8.length (render slashes names) := by
  rw [render]
  split
  · next empty =>
      rw [List.isEmpty_iff.mp empty]
      exact Nat.zero_le _
  · exact Nat.le_refl _

/-- Only a path of no names takes more. -/
theorem length_render_le (slashes : Nat) (names : List Text) :
    Utf8.length (render slashes names) ≤
      max 1 (Utf8.length (List.replicate slashes '/' ++ Text.join ['/'] names)) := by
  rw [render]
  split
  · exact Nat.le_max_left _ _
  · exact Nat.le_max_right _ _

section Under

variable (directory : Text) {name : Text} (isName : IsName name)

include isName

theorem tidy_under : tidy (under directory name) =
    render (rootSlashes directory) (track directory ++ [name]) := by
  have relative := isName.not_isAbsolute
  rw [show tidy (under directory name) =
      render (rootSlashes (under directory name)) (track (under directory name)) from rfl,
    track_under directory relative, isName.isStep.track, under_eq_append directory relative,
    rootSlashes_slashed_append directory relative]

/-- A name adds its own bytes to those of the directory that it is read in, and a slash. -/
theorem length_tidy_under : Utf8.length (tidy (under directory name)) ≤
    Utf8.length (tidy directory) + (Utf8.length name + 1) := by
  have above := length_le_render (rootSlashes directory) (track directory)
  have below := length_render_le (rootSlashes directory) (track directory ++ [name])
  have slash : Utf8.length ['/'] = 1 := by decide +kernel
  rw [tidy_under directory isName,
    show tidy directory = render (rootSlashes directory) (track directory) from rfl]
  refine below.trans ?_
  by_cases top : track directory = []
  · rw [top] at above ⊢
    rw [List.nil_append, Text.join_singleton, Utf8.length_append]
    rw [Text.join_nil, List.append_nil] at above
    omega
  · have joined : Text.join ['/'] (track directory ++ [name]) =
        Text.join ['/'] (track directory) ++ (['/'] ++ name) := Text.join_concat '/' top name
    rw [joined, Utf8.length_append, Utf8.length_append, Utf8.length_append, slash]
    rw [Utf8.length_append] at above
    omega

theorem not_mem_tidy_under {c : Char} (notDot : c ≠ '.') (notSlash : c ≠ '/')
    (above : c ∉ tidy directory) (below : c ∉ name) : c ∉ tidy (under directory name) := by
  rw [tidy_under directory isName]
  intro held
  rcases mem_render held with dot | slash | ⟨step, member, inside⟩
  · exact notDot dot
  · exact notSlash slash
  · rcases List.mem_append.mp member with onTrack | last
    · exact above (mem_render_of_mem _ onTrack inside)
    · exact below (List.mem_singleton.mp last ▸ inside)

end Under

@[simp] theorem tidy_normalize (path : Text) : tidy (normalize path) = normalize path := by
  rw [show tidy (normalize path) =
      render (rootSlashes (normalize path)) (track (normalize path)) from rfl,
    rootSlashes_normalize, track_normalize, ← normalize_eq]

end Path

namespace Disk

/-- How many bytes the names on a way take, each with a slash. -/
def reach : List Text → Nat
  | [] => 0
  | name :: rest => Utf8.length name + 1 + reach rest

/-- The greatest number of bytes that the names on the way to a node take. -/
def span (disk : Disk) : Nat :=
  (disk.nodes.map fun entry => reach entry.1).foldr max 0

/-- No name in the tree holds the character that no name may hold. -/
def Clean (disk : Disk) : Prop :=
  ∀ way ∈ disk.nodes.map (·.1), ∀ name ∈ way, '\x00' ∉ name

instance (disk : Disk) : Decidable disk.Clean :=
  inferInstanceAs (Decidable (∀ way ∈ disk.nodes.map (·.1), ∀ name ∈ way, '\x00' ∉ name))

variable {disk : Disk} {directory path : Text} {entries : List Entry} {entry : Entry}
variable {failure : Failure} {base : Nat}

theorem reach_concat (way : List Text) (name : Text) :
    reach (way ++ [name]) = reach way + (Utf8.length name + 1) := by
  induction way with
  | nil => exact Nat.add_comm _ _
  | cons first rest inductionHypothesis =>
      rw [List.cons_append, reach, reach, inductionHypothesis, ← Nat.add_assoc]

@[simp] theorem tidy_resolve (disk : Disk) (path : Text) :
    Path.tidy (disk.resolve path) = disk.resolve path :=
  Path.tidy_normalize _

/-- A path that a walk from a path of a given length has come to. -/
structure Walked (disk : Disk) (base : Nat) (path : Text) : Prop where
  /-- No name on the way is too long. -/
  led : disk.follow [] (disk.route path) ≠ .tooLong
  /-- The path has grown by the names that lead to its place. -/
  grown : Utf8.length (Path.tidy path) ≤ base + reach (disk.place path)
  /-- The path is not too long. -/
  short : Utf8.length (Path.tidy path) < pathLimit
  /-- The path holds no character that no name may hold. -/
  clean : '\x00' ∉ Path.tidy path

/-- A path that is there and leaves room for the longest way is one to set out from. -/
theorem walked_of_present (there : disk.present path = .ok true)
    (room : Utf8.length (Path.tidy path) + disk.span < pathLimit) :
    disk.Walked (Utf8.length (Path.tidy path)) path := by
  have short : Utf8.length (Path.tidy path) < pathLimit := by omega
  unfold present nodeAt? at there
  dsimp only at there
  split at there
  · cases there
  · next clean =>
      refine ⟨fun tooLong => ?_, Nat.le_add_right _ _, short,
        fun held => clean (List.contains_iff_mem.mpr held)⟩
      rw [locate_eq, if_neg (Nat.not_le.mpr short), route_tidy, tooLong] at there
      cases there

section Room

variable (proper : disk.Proper) (clean : disk.Clean) (room : base + disk.span < pathLimit)

include proper clean room

theorem Walked.under (walked : disk.Walked base directory)
    (listed : disk.list directory = .ok entries) (member : entry ∈ entries) :
    disk.Walked base (Path.under directory entry.name) := by
  rcases proper.follow_child listed member with ⟨node, reached, held, _, isName⟩
  have within : reach (disk.place directory ++ [entry.name]) ≤ disk.span :=
    List.le_max_of_le' 0 (List.mem_map_of_mem held) (Nat.le_refl _)
  have longer := Path.length_tidy_under directory isName
  have grown := walked.grown
  rw [reach_concat] at within
  constructor
  case led =>
    rw [reached]
    exact Destination.noConfusion
  case grown =>
    rw [(proper.place_of_mem_list listed member).1, reach_concat]
    omega
  case short => omega
  case clean =>
    refine Path.not_mem_tidy_under directory isName (by decide) (by decide) walked.clean ?_
    exact clean _ (List.mem_map_of_mem held) _ (List.mem_append_right _ List.mem_cons_self)

theorem exists_readBytes_of_found {file : Text}
    (found : Files.FoundIn (Shelf.ofDisk disk) (disk.Walked base) file) :
    ∃ content, disk.readBytes file = .ok content := by
  rcases found with ⟨directory, entries, entry, walked, listed, member, outside, rfl⟩
  rcases proper.follow_child listed member with ⟨node, reached, held, inside, isName⟩
  have child := Walked.under proper clean room walked listed member
  cases node with
  | directory =>
      rw [outside] at inside
      exact absurd inside (by decide)
  | file content =>
      refine ⟨content, readBytes_eq_ok_iff.mpr ⟨Bool.eq_false_iff.mpr fun contained =>
        child.clean (List.contains_iff_mem.mp contained), ?_⟩⟩
      rw [locate_eq, if_neg (Nat.not_le.mpr child.short), route_tidy, reached,
        (proper.place_of_mem_list listed member).1]

end Room

/-- Of a path that a walk has come to, only a directory that is missing keeps it from going on. -/
theorem Walked.isAbsence (walked : disk.Walked base directory)
    (stopped : disk.list directory = .error failure) : failure.isAbsence = true := by
  unfold list at stopped
  dsimp only at stopped
  split at stopped
  · cases stopped
    rfl
  · split at stopped
    · cases stopped
    · next tooLong =>
        rw [locate_eq, if_neg (Nat.not_le.mpr walked.short), route_tidy] at tooLong
        exact absurd tooLong walked.led
    · cases stopped
      rfl

section Present

variable (proper : disk.Proper) (clean : disk.Clean) (there : disk.present path = .ok true)
  (room : Utf8.length (Path.tidy path) + disk.span < pathLimit)

include proper clean there room

/-- From a path that is there and leaves room for the longest way, a walk is stopped only by
something that is missing. -/
theorem isAbsence_of_walk (stopped : Files.walk (Shelf.ofDisk disk) path = .error failure) :
    failure.isAbsence = true := by
  rcases (Shelf.layout (Shelf.ofDisk disk) proper).exists_unlisted _
    (fun walked listed member _ => Walked.under proper clean room walked listed member)
    (Nat.succ_ne_zero _) (by omega) (walked_of_present there room) stopped with
    ⟨directory, walked, unlisted⟩
  exact walked.isAbsence unlisted

theorem isAbsence_of_collect (stopped : Files.collect (Shelf.ofDisk disk) path = .error failure) :
    failure.isAbsence = true := by
  unfold Files.collect at stopped
  split at stopped
  · next failed =>
      rw [show Files.present (Shelf.ofDisk disk) path = .ok true from there] at stopped
      split at stopped
      · cases stopped
      · cases stopped
        exact isAbsence_of_walk proper clean there room failed
  · exact isAbsence_of_walk proper clean there room stopped

theorem exists_readBytes_of_walk {found : List Text}
    (walked : Files.walk (Shelf.ofDisk disk) path = .ok found) :
    ∀ file ∈ found, ∃ content, disk.readBytes file = .ok content := by
  intro file member
  exact exists_readBytes_of_found proper clean room (Files.foundIn_of_walkWithin
    (fun above listed among _ => Walked.under proper clean room above listed among)
    (walked_of_present there room) walked file member)

end Present
end Disk
end Crosslink

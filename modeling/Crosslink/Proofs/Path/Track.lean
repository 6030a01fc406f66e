import Crosslink.Proofs.Path.Normal

namespace Crosslink
namespace Path

/-!
Paths as tracks.  A track is the list of names that a path leads through, with `..` kept and
nothing settled.  A path and its tidy form have one track, and reading a path inside a directory
puts their tracks together.
-/

/-- The names that a path leads through. -/
def track (path : Text) : List Text :=
  (names path).filter (· != here)

structure IsStep (name : Text) : Prop where
  /-- The name is not empty. -/
  nonempty : name ≠ []
  /-- The name is not that of the directory itself. -/
  notHere : name ≠ here
  /-- The name is a single component. -/
  whole : '/' ∉ name

theorem IsName.isStep {name : Text} (isName : IsName name) : IsStep name :=
  ⟨isName.nonempty, isName.notHere, isName.whole⟩

theorem isStep_of_mem_track {path name : Text} (member : name ∈ track path) : IsStep name := by
  rcases List.mem_filter.mp member with ⟨inNames, notHere⟩
  rcases List.mem_filter.mp inNames with ⟨component, nonempty⟩
  refine ⟨?_, bne_iff_ne.mp notHere, Text.not_mem_of_mem_splitOn component⟩
  intro empty
  rw [empty] at nonempty
  cases nonempty

/-! ## Tracks of joined paths -/

theorem track_append_cons (first second : Text) :
    track (first ++ '/' :: second) = track first ++ track second := by
  rw [track, names, Text.splitOn_append_cons, List.filter_append, List.filter_append]
  rfl

@[simp] theorem track_cons_slash (path : Text) : track ('/' :: path) = track path :=
  track_append_cons [] path

@[simp] theorem track_dropEndWhile (path : Text) :
    track (Text.dropEndWhile (· == '/') path) = track path :=
  apply_dropEndWhile track
    (fun start => (track_append_cons start []).trans (List.append_nil _)) path

theorem track_slashed_append (directory path : Text) :
    track (slashed directory ++ path) = track directory ++ track path := by
  rcases List.eq_nil_or_concat directory with rfl | ⟨start, c, rfl⟩
  · rfl
  · rw [List.concat_eq_append, slashed_concat]
    split
    · next slash =>
        rw [slash, List.append_assoc, List.singleton_append, track_append_cons,
          track_append_cons, List.append_assoc]
        rfl
    · rw [List.append_assoc, List.singleton_append, track_append_cons]

theorem track_under (directory : Text) {path : Text} (relative : isAbsolute path = false) :
    track (under directory path) = track directory ++ track path := by
  rw [under_eq_append directory relative, track_slashed_append]

theorem track_join {steps : List Text} (isStep : ∀ name ∈ steps, IsStep name) :
    track (Text.join ['/'] steps) = steps := by
  by_cases empty : steps = []
  · rw [empty]
    rfl
  · rw [track, names, Text.splitOn_join empty fun name member => (isStep name member).whole,
      List.filter_filter]
    refine List.filter_eq_self.mpr fun name member => ?_
    rw [Bool.and_eq_true, bne_iff_ne, Bool.not_eq_true']
    exact ⟨(isStep name member).notHere,
      Bool.eq_false_iff.mpr fun none => (isStep name member).nonempty (List.isEmpty_iff.mp none)⟩

theorem track_replicate_append (slashes : Nat) (path : Text) :
    track (List.replicate slashes '/' ++ path) = track path := by
  induction slashes with
  | zero => rfl
  | succ slashes inductionHypothesis =>
      rw [List.replicate_succ, List.cons_append, track_cons_slash, inductionHypothesis]

theorem track_render (slashes : Nat) {steps : List Text} (isStep : ∀ name ∈ steps, IsStep name) :
    track (render slashes steps) = steps := by
  have joined := (track_replicate_append slashes (Text.join ['/'] steps)).trans (track_join isStep)
  rw [render]
  split
  · next nothing =>
      rw [List.isEmpty_iff.mp nothing] at joined
      exact joined
  · exact joined

@[simp] theorem track_tidy (path : Text) : track (tidy path) = track path :=
  track_render _ fun _ member => isStep_of_mem_track member

theorem IsStep.track {name : Text} (isStep : IsStep name) : track name = [name] := by
  have joined : Text.join ['/'] [name] = name := Text.join_singleton ['/'] name
  have single := track_join fun other member => List.mem_singleton.mp member ▸ isStep
  rw [joined] at single
  exact single

/-! ## Roots -/

theorem isAbsolute_append {first : Text} (nonempty : first ≠ []) (second : Text) :
    isAbsolute (first ++ second) = isAbsolute first := by
  cases first with
  | nil => exact absurd rfl nonempty
  | cons c rest => rfl

@[simp] theorem isAbsolute_tidy_eq (path : Text) : isAbsolute (tidy path) = isAbsolute path := by
  cases absolute : isAbsolute path with
  | true => exact isAbsolute_tidy absolute
  | false =>
      rw [tidy, rootSlashes_of_not_isAbsolute absolute]
      exact isAbsolute_render_zero fun name member =>
        ⟨(isStep_of_mem_track member).nonempty, (isStep_of_mem_track member).whole⟩

/-- The slashes in front of a relative path are those that are put there. -/
theorem rootSlashes_replicate_append {slashes : Nat} (few : slashes ≤ 2) {path : Text}
    (relative : isAbsolute path = false) :
    rootSlashes (List.replicate slashes '/' ++ path) = slashes := by
  have notSlash : ∀ rest, path ≠ '/' :: rest := by
    rintro rest rfl
    cases relative
  match slashes, few with
  | 0, _ => exact rootSlashes_of_not_isAbsolute relative
  | 1, _ =>
      rw [List.replicate_one, List.singleton_append]
      unfold rootSlashes
      split
      · next begins => exact absurd (List.cons.inj begins).2 (notSlash _)
      · next begins => exact absurd (List.cons.inj begins).2 (notSlash _)
      · rfl
      · next none => exact absurd rfl (none path)
  | 2, _ =>
      rw [show List.replicate 2 '/' ++ path = '/' :: '/' :: path from rfl]
      unfold rootSlashes
      split
      · next begins => exact absurd (List.cons.inj (List.cons.inj begins).2).2 (notSlash _)
      · rfl
      · next unmatched begins => exact (unmatched path (List.cons.inj begins).2.symm).elim
      · next unmatched => exact (unmatched ('/' :: path) rfl).elim

/-- A path with names is tidied into its slashes and the names of its track. -/
theorem tidy_eq_append {path : Text} (onward : track path ≠ []) :
    tidy path = List.replicate (rootSlashes (tidy path)) '/' ++ Text.join ['/'] (track path) := by
  have plain : ∀ name ∈ track path, name ≠ [] ∧ '/' ∉ name := fun name member =>
    ⟨(isStep_of_mem_track member).nonempty, (isStep_of_mem_track member).whole⟩
  have nonempty : Text.join ['/'] (track path) ≠ [] := fun empty =>
    onward ((Text.join_eq_nil_iff fun name member => (plain name member).1).mp empty)
  have written : tidy path =
      List.replicate (rootSlashes path) '/' ++ Text.join ['/'] (track path) :=
    if_neg fun empty => nonempty (List.append_eq_nil_iff.mp (List.isEmpty_iff.mp empty)).2
  have relative : isAbsolute (Text.join ['/'] (track path)) = false := by
    rw [← render_zero_of_ne_nil onward fun name member => (plain name member).1]
    exact isAbsolute_render_zero plain
  rw [written, rootSlashes_replicate_append (rootSlashes_le_two path) relative]

end Path
end Crosslink

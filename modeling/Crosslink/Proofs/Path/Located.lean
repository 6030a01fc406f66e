import Crosslink.Proofs.Path.Settled

namespace Crosslink
namespace Path

/-!
Absolute spellings.  A path is located by writing out the home directory and the working directory
in front of it, and this goes wrong for one kind of path only, that in the home directory of
a user who has none.  A path that has been located has nothing more written in front of it, and is tidy
already, so that it stays as it is when it is located once more.
-/

variable {surroundings : Surroundings} {path found : Text} {fault : PathError}

@[simp] theorem tidy_tidy (path : Text) : tidy (tidy path) = tidy path := by
  have slashes : rootSlashes (tidy path) = rootSlashes path :=
    rootSlashes_render (rootSlashes_le_two path) fun _ member => isStep_of_mem_track member
  calc tidy (tidy path) = render (rootSlashes (tidy path)) (track (tidy path)) := rfl
    _ = render (rootSlashes path) (track path) := by rw [slashes, track_tidy]

/-! ## Home directories -/

theorem user?_of_isAbsolute (absolute : isAbsolute path = true) : user? path = none := by
  unfold user?
  split
  · exact if_pos absolute
  · rfl

theorem expandHome_of_isAbsolute (absolute : isAbsolute path = true) :
    expandHome surroundings path = .ok path := by
  unfold expandHome
  split
  · exact if_pos absolute
  · rfl

/-- A home directory that is known, and one that is the root. -/
example :
    let surroundings : Surroundings :=
      { cwd := "/w", home := "/", homes := [("ann", "/people/ann/")] }
    located surroundings "~ann/d" = .ok "/people/ann/d" ∧ located surroundings "~/d" = .ok "/d" ∧
      located surroundings "~bea/d" = .error .unknownHome := by
  decide +kernel

theorem located_of_isAbsolute (absolute : isAbsolute path = true) :
    located surroundings path = .ok (tidy path) := by
  have tidyAbsolute := isAbsolute_tidy absolute
  have expanded : expandHome surroundings (tidy path) = .ok (tidy path) :=
    expandHome_of_isAbsolute tidyAbsolute
  have inside : under surroundings.cwd (tidy path) = tidy path := if_pos tidyAbsolute
  rw [located, expanded]
  exact congrArg Except.ok ((congrArg tidy inside).trans (tidy_tidy path))

theorem tidy_of_located (made : located surroundings path = .ok found) : tidy found = found := by
  rw [located] at made
  cases expanded : expandHome surroundings (tidy path) with
  | error other =>
      rw [expanded] at made
      cases made
  | ok whole =>
      rw [expanded] at made
      cases made
      exact tidy_tidy _

theorem located_of_located (rooted : isAbsolute surroundings.cwd = true)
    (made : located surroundings path = .ok found) : located surroundings found = .ok found := by
  rw [located_of_isAbsolute (isAbsolute_located rooted made), tidy_of_located made]

end Path
end Crosslink

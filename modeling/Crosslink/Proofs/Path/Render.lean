import Crosslink.Proofs.Path.Settled

namespace Crosslink
namespace Path

/-!
Written names.  A path that is written from the slashes of its root and from names does not end
with a slash unless it is the root.  More names stand behind one more slash, which the root brings
along, and a name that is read inside the path is written behind its names.
-/

theorem IsPlace.isStep {names : List Text} (isPlace : IsPlace names) :
    ∀ name ∈ names, IsStep name :=
  fun name member => (isPlace name member).isStep

theorem IsPlace.of_append {first second : List Text} (isPlace : IsPlace (first ++ second)) :
    IsPlace first :=
  fun name member => isPlace name (List.mem_append_left second member)

theorem dropEndWhile_replicate (slashes : Nat) :
    Text.dropEndWhile (· == '/') (List.replicate slashes '/') = [] :=
  List.rdropWhile_eq_nil_iff.mpr fun _ held => beq_iff_eq.mpr (List.eq_of_mem_replicate held)

theorem render_succ (slashes : Nat) (names : List Text) :
    render (slashes + 1) names = List.replicate (slashes + 1) '/' ++ Text.join ['/'] names := rfl

@[simp] theorem render_nil (slashes : Nat) : render (slashes + 1) [] = List.replicate (slashes + 1) '/' :=
  List.append_nil _

/-- More names stand behind a slash, which the root brings along. -/
theorem render_append (slashes : Nat) (names : List Text) {more : List Text} (further : more ≠ []) :
    render (slashes + 1) (names ++ more) =
      if names = [] then render (slashes + 1) [] ++ Text.join ['/'] more
      else render (slashes + 1) names ++ '/' :: Text.join ['/'] more := by
  split
  · next top => rw [top, List.nil_append, render_nil, render_succ]
  · next onward =>
      rw [render_succ, render_succ, Text.join_append '/' onward further, List.append_assoc]

/-- One more name stands behind a slash, which the root brings along. -/
theorem render_concat (slashes : Nat) (names : List Text) (name : Text) :
    render (slashes + 1) (names ++ [name]) =
      if names = [] then render (slashes + 1) [] ++ name
      else render (slashes + 1) names ++ '/' :: name := by
  rw [render_append slashes names (List.cons_ne_nil name []), Text.join_singleton]

variable {names : List Text}

/-- The last character of a path with names is one of the last name. -/
theorem exists_render_eq_concat (isStep : ∀ name ∈ names, IsStep name) (onward : names ≠ [])
    (slashes : Nat) : ∃ ahead c, render (slashes + 1) names = ahead ++ [c] ∧ c ≠ '/' := by
  rcases List.eq_nil_or_concat names with top | ⟨front, last, rfl⟩
  · exact absurd top onward
  · rw [List.concat_eq_append] at isStep ⊢
    have lastStep := isStep last (List.mem_append_right _ List.mem_cons_self)
    rcases List.eq_nil_or_concat last with empty | ⟨start, c, rfl⟩
    · exact absurd empty lastStep.nonempty
    · rw [List.concat_eq_append] at lastStep ⊢
      have other : c ≠ '/' := fun slash =>
        lastStep.whole (slash ▸ List.mem_append_right start List.mem_cons_self)
      rw [render_concat]
      split
      · exact ⟨_, c, (List.append_assoc _ _ _).symm, other⟩
      · exact ⟨_, c, (List.append_assoc _ ('/' :: start) [c]).symm, other⟩

theorem dropEndWhile_render (isStep : ∀ name ∈ names, IsStep name) (onward : names ≠ [])
    (slashes : Nat) :
    Text.dropEndWhile (· == '/') (render (slashes + 1) names) = render (slashes + 1) names := by
  rcases exists_render_eq_concat isStep onward slashes with ⟨ahead, c, ending, other⟩
  rw [ending]
  exact List.rdropWhile_concat_neg _ _ _ fun slash => other (beq_iff_eq.mp slash)

/-- A slash is put behind the names, not behind the root. -/
theorem slashed_render (isStep : ∀ name ∈ names, IsStep name) (slashes : Nat) :
    slashed (render (slashes + 1) names) =
      if names = [] then render (slashes + 1) [] else render (slashes + 1) names ++ ['/'] := by
  split
  · next top => rw [top, render_nil, slashed_replicate]
  · next onward =>
      rcases exists_render_eq_concat isStep onward slashes with ⟨ahead, c, ending, other⟩
      rw [ending, slashed_concat, if_neg other]

/-- What is written from the names of a place and at most two slashes is a normal form. -/
theorem normalize_render (isPlace : IsPlace names) {slashes : Nat} (few : slashes + 1 ≤ 2) :
    normalize (render (slashes + 1) names) = render (slashes + 1) names := by
  have absolute : isAbsolute (render (slashes + 1) names) = true := rfl
  rcases normalize_eq_render absolute with ⟨also, counted, rendered⟩
  rw [rootSlashes_render few isPlace.isStep] at counted
  rw [rendered, place_render_succ isPlace, counted]

/-- More names are written behind the slash of a directory. -/
theorem render_append_eq_slashed (isStep : ∀ name ∈ names, IsStep name) (slashes : Nat)
    {more : List Text} (further : more ≠ []) :
    render (slashes + 1) (names ++ more) =
      slashed (render (slashes + 1) names) ++ Text.join ['/'] more := by
  rw [render_append slashes names further, slashed_render isStep]
  split
  · rfl
  · rw [List.append_assoc, List.singleton_append]

/-- A name that is read inside a path is written behind its names. -/
theorem under_render (isStep : ∀ name ∈ names, IsStep name) (slashes : Nat) {name : Text}
    (relative : isAbsolute name = false) :
    under (render (slashes + 1) names) name = render (slashes + 1) (names ++ [name]) := by
  rw [render_append_eq_slashed isStep slashes (List.cons_ne_nil name []), Text.join_singleton,
    under_eq_append _ relative]

end Path
end Crosslink

import Crosslink.Proofs.Path.Track

namespace Crosslink
namespace Path

/-!
Settled names.  What remains of a list of components stays as it is when it is settled again, and
so does every beginning of it; so the normal form of a path leads by settled names, and a name
that is read inside it is put behind them where they are settled together.
-/

/-! ## One component -/

/-- A component is added to the names kept so far, or it changes nothing or takes one away. -/
theorem push_cases (rooted : Bool) (kept : List Text) (name : Text) :
    push rooted kept name = name :: kept ∨ push rooted kept name = kept ∨
      push rooted kept name = kept.tail := by
  unfold push
  split
  · exact Or.inr (Or.inl rfl)
  · split
    · next climbs =>
        rw [climbs]
        cases kept with
        | nil =>
            cases rooted with
            | true => exact Or.inr (Or.inl rfl)
            | false => exact Or.inl rfl
        | cons top rest =>
            dsimp only
            split
            · exact Or.inl rfl
            · exact Or.inr (Or.inr rfl)
    · exact Or.inl rfl

theorem length_push_le (rooted : Bool) (kept : List Text) (name : Text) :
    (push rooted kept name).length ≤ kept.length + 1 := by
  rcases push_cases rooted kept name with added | same | removed
  · rw [added, List.length_cons]
  · rw [same]
    exact Nat.le_succ _
  · rw [removed, List.length_tail]
    omega

/-- A component that makes the names more is added to them. -/
theorem push_eq_cons_of_length {rooted : Bool} {kept : List Text} {name : Text}
    (grown : kept.length < (push rooted kept name).length) :
    push rooted kept name = name :: kept := by
  rcases push_cases rooted kept name with added | same | removed
  · exact added
  · rw [same] at grown
    exact absurd grown (Nat.lt_irrefl _)
  · rw [removed, List.length_tail] at grown
    omega

/-! ## Several components -/

variable {rooted : Bool} {names first second : List Text} {name : Text}

theorem length_foldl_push_le (rooted : Bool) (names kept : List Text) :
    (names.foldl (push rooted) kept).length ≤ kept.length + names.length := by
  induction names generalizing kept with
  | nil => exact Nat.le_refl _
  | cons name rest inductionHypothesis =>
      have pushed := length_push_le rooted kept name
      have folded := inductionHypothesis (push rooted kept name)
      rw [List.foldl_cons, List.length_cons]
      omega

/-- Components that all make the names more are all added to them. -/
theorem foldl_push_eq_of_length {kept : List Text}
    (full : kept.length + names.length ≤ (names.foldl (push rooted) kept).length) :
    names.foldl (push rooted) kept = names.reverse ++ kept := by
  induction names generalizing kept with
  | nil => rfl
  | cons name rest inductionHypothesis =>
      rw [List.foldl_cons, List.length_cons] at full
      have folded := length_foldl_push_le rooted rest (push rooted kept name)
      have added : push rooted kept name = name :: kept := push_eq_cons_of_length (by omega)
      rw [added] at full
      rw [List.foldl_cons, added, inductionHypothesis (by rw [List.length_cons]; omega),
        List.reverse_cons, List.append_assoc, List.singleton_append]

def IsSettled (rooted : Bool) (names : List Text) : Prop :=
  settle rooted names = names

theorem IsSettled.foldl_push (settled : IsSettled rooted names) :
    names.foldl (push rooted) [] = names.reverse := by
  rw [← List.reverse_reverse (names.foldl (push rooted) [])]
  exact congrArg List.reverse settled

theorem IsSettled.of_append (settled : IsSettled rooted (first ++ second)) :
    IsSettled rooted first := by
  -- All names are kept, and none adds more than itself, so the first ones have all been added.
  have folded := congrArg List.length settled.foldl_push
  rw [List.foldl_append, List.length_reverse, List.length_append] at folded
  have later := length_foldl_push_le rooted second (first.foldl (push rooted) [])
  have kept : first.foldl (push rooted) [] = first.reverse ++ [] :=
    foldl_push_eq_of_length (by rw [List.length_nil]; omega)
  rw [IsSettled, settle, kept, List.append_nil, List.reverse_reverse]

theorem IsSettled.concat (settled : IsSettled rooted names)
    (added : push rooted names.reverse name = name :: names.reverse) :
    IsSettled rooted (names ++ [name]) := by
  calc settle rooted (names ++ [name])
      = (push rooted (names.foldl (push rooted) []) name).reverse := by
        rw [settle, List.foldl_append, List.foldl_cons, List.foldl_nil]
    _ = (name :: names.reverse).reverse := by rw [settled.foldl_push, added]
    _ = names ++ [name] := by rw [List.reverse_cons, List.reverse_reverse]

theorem isSettled_settle (rooted : Bool) (components : List Text) :
    IsSettled rooted (settle rooted components) := by
  suffices general : ∀ kept : List Text, IsSettled rooted kept.reverse →
      IsSettled rooted (components.foldl (push rooted) kept).reverse from general [] rfl
  induction components with
  | nil => exact fun _ settled => settled
  | cons name rest inductionHypothesis =>
      intro kept settled
      refine inductionHypothesis _ ?_
      rcases push_cases rooted kept name with added | same | removed
      · rw [added, List.reverse_cons]
        exact settled.concat (by rw [List.reverse_reverse, added])
      · rw [same]
        exact settled
      · rw [removed]
        cases kept with
        | nil => exact settled
        | cons top below =>
            rw [List.reverse_cons] at settled
            exact settled.of_append

/-- What was settled may be settled again with more behind it. -/
theorem settle_settle_append (rooted : Bool) (first second : List Text) :
    settle rooted (settle rooted first ++ second) = settle rooted (first ++ second) := by
  have kept : (settle rooted first).foldl (push rooted) [] = first.foldl (push rooted) [] := by
    rw [(isSettled_settle rooted first).foldl_push, settle, List.reverse_reverse]
  rw [settle, List.foldl_append, kept, settle, List.foldl_append]

/-! ## Normal forms -/

/-- Components that are ignored might as well not be there. -/
theorem foldl_push_filter (keeps : Text → Bool)
    (ignored : ∀ name, keeps name = false → name = [] ∨ name = here) (components kept : List Text) :
    (components.filter keeps).foldl (push rooted) kept = components.foldl (push rooted) kept := by
  induction components generalizing kept with
  | nil => rfl
  | cons name rest inductionHypothesis =>
      cases step : keeps name with
      | true =>
          rw [List.filter_cons_of_pos step]
          exact inductionHypothesis _
      | false =>
          have unchanged : push rooted kept name = kept := if_pos (ignored name step)
          rw [List.filter_cons_of_neg (Bool.eq_false_iff.mp step), List.foldl_cons, unchanged]
          exact inductionHypothesis kept

theorem settle_track (rooted : Bool) (path : Text) :
    settle rooted (track path) = settle rooted (path.splitOn '/') := by
  rw [settle, settle, track, names, foldl_push_filter, foldl_push_filter]
  · intro name empty
    exact Or.inl (List.isEmpty_iff.mp (Bool.not_eq_eq_eq_not.mp empty))
  · intro name same
    exact Or.inr (bne_eq_false_iff_eq.mp same)

theorem rootSlashes_bne_zero (path : Text) : (rootSlashes path != 0) = isAbsolute path := by
  cases absolute : isAbsolute path with
  | true =>
      rcases rootSlashes_of_isAbsolute absolute with ⟨slashes, counted⟩
      rw [counted]
      rfl
  | false => rw [rootSlashes_of_not_isAbsolute absolute]; rfl

theorem normalize_eq (path : Text) :
    normalize path = render (rootSlashes path) (settle (isAbsolute path) (track path)) := by
  rw [normalize, settle_track, rootSlashes_bne_zero]

theorem isStep_of_mem_settle_track {path : Text} (member : name ∈ settle rooted (track path)) :
    IsStep name := by
  suffices general : ∀ (steps kept : List Text), (∀ step ∈ steps, IsStep step) →
      (∀ step ∈ kept, IsStep step) → ∀ step ∈ steps.foldl (push rooted) kept, IsStep step from
    general (track path) [] (fun _ among => isStep_of_mem_track among)
      (fun _ impossible => absurd impossible List.not_mem_nil) name (List.mem_reverse.mp member)
  intro steps
  induction steps with
  | nil => exact fun _ _ kept => kept
  | cons first rest inductionHypothesis =>
      intro kept isStep isStepKept
      refine inductionHypothesis _ (fun step later => isStep step (List.mem_cons_of_mem first later))
        fun step among => ?_
      rcases push_cases rooted kept first with added | same | removed
      · rw [added] at among
        rcases List.mem_cons.mp among with here | earlier
        · exact here ▸ isStep first List.mem_cons_self
        · exact isStepKept step earlier
      · exact isStepKept step (same ▸ among)
      · exact isStepKept step (List.mem_of_mem_tail (removed ▸ among))

theorem isAbsolute_join {steps : List Text} (isStep : ∀ name ∈ steps, IsStep name) :
    isAbsolute (Text.join ['/'] steps) = false := by
  by_cases empty : steps = []
  · rw [empty]
    rfl
  · rw [← render_zero_of_ne_nil empty fun name member => (isStep name member).nonempty]
    exact isAbsolute_render_zero fun name member =>
      ⟨(isStep name member).nonempty, (isStep name member).whole⟩

theorem rootSlashes_render {slashes : Nat} (few : slashes ≤ 2) {steps : List Text}
    (isStep : ∀ name ∈ steps, IsStep name) : rootSlashes (render slashes steps) = slashes := by
  have counted := rootSlashes_replicate_append few (isAbsolute_join isStep)
  rw [render]
  split
  · next nothing =>
      rw [List.isEmpty_iff.mp nothing] at counted
      exact counted
  · exact counted

@[simp] theorem rootSlashes_normalize (path : Text) : rootSlashes (normalize path) = rootSlashes path := by
  rw [normalize_eq]
  exact rootSlashes_render (rootSlashes_le_two path) fun _ member =>
    isStep_of_mem_settle_track member

theorem track_normalize (path : Text) :
    track (normalize path) = settle (isAbsolute path) (track path) := by
  rw [normalize_eq]
  exact track_render _ fun _ member => isStep_of_mem_settle_track member

@[simp] theorem isAbsolute_normalize (path : Text) : isAbsolute (normalize path) = isAbsolute path := by
  rw [← rootSlashes_bne_zero, rootSlashes_normalize, rootSlashes_bne_zero]

/-- A normal form leads by settled names. -/
theorem isSettled_track_normalize (path : Text) :
    IsSettled (isAbsolute (normalize path)) (track (normalize path)) := by
  rw [isAbsolute_normalize, track_normalize]
  exact isSettled_settle _ _

/-- A normal form is its own normal form. -/
@[simp] theorem normalize_normalize (path : Text) : normalize (normalize path) = normalize path := by
  rw [normalize_eq (normalize path), isSettled_track_normalize path, rootSlashes_normalize,
    track_normalize, ← normalize_eq]

/-! ## Names read inside a directory -/

theorem IsStep.not_isAbsolute (isStep : IsStep name) : isAbsolute name = false := by
  refine Bool.eq_false_iff.mpr fun absolute => ?_
  rcases isAbsolute_iff.mp absolute with ⟨rest, begins⟩
  exact isStep.whole (begins ▸ List.mem_cons_self)

/-- Behind slashes in front of it, what a relative path is plays no part in the root. -/
theorem rootSlashes_replicate_congr (slashes : Nat) {path other : Text}
    (relative : isAbsolute path = false) (also : isAbsolute other = false) :
    rootSlashes (List.replicate slashes '/' ++ path) =
      rootSlashes (List.replicate slashes '/' ++ other) := by
  by_cases few : slashes ≤ 2
  · rw [rootSlashes_replicate_append few relative, rootSlashes_replicate_append few also]
  · obtain ⟨more, rfl⟩ : ∃ more, slashes = more + 3 := ⟨slashes - 3, by omega⟩
    rfl

/-- A path is some slashes and a relative path behind them. -/
theorem exists_slashes (path : Text) :
    ∃ slashes rest, path = List.replicate slashes '/' ++ rest ∧ isAbsolute rest = false := by
  induction path with
  | nil => exact ⟨0, [], rfl, rfl⟩
  | cons c rest inductionHypothesis =>
      by_cases slash : c = '/'
      · rcases inductionHypothesis with ⟨slashes, behind, joined, relative⟩
        exact ⟨slashes + 1, behind, by rw [slash, joined]; rfl, relative⟩
      · refine ⟨0, c :: rest, rfl, Bool.eq_false_iff.mpr fun absolute => ?_⟩
        rcases isAbsolute_iff.mp absolute with ⟨_, begins⟩
        exact slash (List.cons.inj begins).1

@[simp] theorem slashed_replicate (slashes : Nat) :
    slashed (List.replicate slashes '/') = List.replicate slashes '/' := by
  cases slashes with
  | zero => rfl
  | succ slashes => rw [List.replicate_succ', slashed_concat, if_pos rfl]

theorem rootSlashes_slashed_append (directory : Text) {path : Text}
    (relative : isAbsolute path = false) :
    rootSlashes (slashed directory ++ path) = rootSlashes directory := by
  rcases exists_slashes directory with ⟨slashes, rest, rfl, restRelative⟩
  have behind : slashed (List.replicate slashes '/' ++ rest) =
      List.replicate slashes '/' ++ slashed rest := by
    have appended := slashed_append (List.replicate slashes '/') rest
    rw [slashed_replicate] at appended
    exact appended
  rw [behind, List.append_assoc]
  exact rootSlashes_replicate_congr slashes (isAbsolute_slashed_append restRelative relative)
    restRelative

theorem isAbsolute_slashed_append_eq (directory : Text) {path : Text}
    (relative : isAbsolute path = false) :
    isAbsolute (slashed directory ++ path) = isAbsolute directory := by
  rw [← rootSlashes_bne_zero, ← rootSlashes_bne_zero, rootSlashes_slashed_append directory relative]

/-- A path that leads nowhere is read inside a directory as the directory. -/
theorem normalize_under_of_track_nil (directory : Text) {path : Text}
    (relative : isAbsolute path = false) (idle : track path = []) :
    normalize (under directory path) = normalize directory := by
  have tracked : track (under directory path) = track directory := by
    rw [track_under directory relative, idle, List.append_nil]
  have slashes : rootSlashes (under directory path) = rootSlashes directory := by
    rw [under_eq_append directory relative, rootSlashes_slashed_append directory relative]
  have rooted : isAbsolute (under directory path) = isAbsolute directory := by
    rw [under_eq_append directory relative, isAbsolute_slashed_append_eq directory relative]
  rw [normalize_eq, normalize_eq, tracked, slashes, rooted]

/-- A name that is settled behind a directory stands behind it when it is read inside. -/
theorem track_normalize_under (directory : Text) (isStep : IsStep name)
    (settled : IsSettled (isAbsolute directory) (track (normalize directory) ++ [name])) :
    track (normalize (under directory name)) = track (normalize directory) ++ [name] := by
  have tracked : track (under directory name) = track directory ++ [name] := by
    rw [track_under directory isStep.not_isAbsolute, isStep.track]
  have rooted : isAbsolute (under directory name) = isAbsolute directory := by
    rw [under_eq_append directory isStep.not_isAbsolute,
      isAbsolute_slashed_append_eq directory isStep.not_isAbsolute]
  calc track (normalize (under directory name))
      = settle (isAbsolute directory) (track directory ++ [name]) := by
        rw [track_normalize, rooted, tracked]
    _ = settle (isAbsolute directory) (track (normalize directory) ++ [name]) := by
        rw [track_normalize, settle_settle_append]
    _ = track (normalize directory) ++ [name] := settled

/-- A path as a list: a nameless component for each slash of its root, then its track. -/
def address (path : Text) : List Text :=
  List.replicate (rootSlashes path) [] ++ track path

theorem address_normalize_under (directory : Text) (isStep : IsStep name)
    (settled : IsSettled (isAbsolute directory) (track (normalize directory) ++ [name])) :
    address (normalize (under directory name)) = address (normalize directory) ++ [name] := by
  have slashes : rootSlashes (normalize (under directory name)) =
      rootSlashes (normalize directory) := by
    rw [rootSlashes_normalize, rootSlashes_normalize, under_eq_append directory isStep.not_isAbsolute,
      rootSlashes_slashed_append directory isStep.not_isAbsolute]
  rw [address, address, slashes, track_normalize_under directory isStep settled, List.append_assoc]

end Path
end Crosslink

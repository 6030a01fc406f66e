import Crosslink.Proofs.Path.Render
import Mathlib.Logic.Function.Iterate

namespace Crosslink
namespace Path

/-!
The directories above a path.  Each step up leaves the beginning of a path, so it makes the path
shorter or stays where it is; a path that is met again on the way up is met at once, and there
are never more steps than characters.  From a normal form a step up takes the last name away and
leaves a normal form.
-/

/-! ## Steps up -/

theorem parent_isPrefix (path : Text) : parent path <+: path := by
  have head : (path.reverse.dropWhile (· != '/')).reverse <+: path := List.rdropWhile_prefix _ _
  unfold parent
  dsimp only
  split
  · exact head
  · exact (List.rdropWhile_prefix _ _).trans head

/-- So many steps lead up from a path, none of them to nowhere or to where it has been. -/
def Climbs (path : Text) (steps : Nat) : Prop :=
  ∀ step ≤ steps, parent^[step] path ≠ [] ∧
    ∀ earlier < step, parent^[earlier] path ≠ parent^[step] path

instance (path : Text) (steps : Nat) : Decidable (Climbs path steps) :=
  inferInstanceAs (Decidable (∀ step ≤ steps, _ ∧ ∀ earlier < step, _))

theorem Climbs.mono {path : Text} {steps fewer : Nat} (climbs : Climbs path steps)
    (before : fewer ≤ steps) : Climbs path fewer :=
  fun step within => climbs step (within.trans before)

/-- Each of so many steps up leads somewhere else. -/
def Rises (path : Text) (steps : Nat) : Prop :=
  ∀ step < steps, parent^[step + 1] path ≠ [] ∧ parent^[step + 1] path ≠ parent^[step] path

theorem rises_succ_iff {path : Text} {steps : Nat} :
    Rises path (steps + 1) ↔
      (parent path ≠ [] ∧ parent path ≠ path) ∧ Rises (parent path) steps := by
  constructor
  · intro rises
    exact ⟨rises 0 (Nat.succ_pos _),
      fun step earlier => rises (step + 1) (Nat.succ_lt_succ earlier)⟩
  · rintro ⟨first, later⟩ step earlier
    cases step with
    | zero => exact first
    | succ step => exact later step (Nat.lt_of_succ_lt_succ earlier)

/-- A step up that leads somewhere else makes the path shorter. -/
theorem Rises.length_lt {path : Text} {steps : Nat} (rises : Rises path steps) {first second : Nat}
    (before : first < second) (within : second ≤ steps) :
    (parent^[second] path).length < (parent^[first] path).length := by
  induction second with
  | zero => exact absurd before (Nat.not_lt_zero _)
  | succ step inductionHypothesis =>
      have shorter : (parent^[step + 1] path).length < (parent^[step] path).length := by
        have beginning : parent^[step + 1] path <+: parent^[step] path := by
          rw [Function.iterate_succ_apply']
          exact parent_isPrefix _
        refine lt_of_not_ge fun longer => ?_
        exact (rises step within).2 (beginning.eq_of_length_le longer)
      rcases Nat.lt_succ_iff_lt_or_eq.mp before with earlier | same
      · exact shorter.trans (inductionHypothesis earlier (Nat.le_of_succ_le within))
      · exact same ▸ shorter

theorem Rises.le_length {path : Text} {steps : Nat} (rises : Rises path steps) :
    steps ≤ path.length := by
  suffices counted : ∀ step ≤ steps, step + (parent^[step] path).length ≤ path.length from
    (Nat.le_add_right _ _).trans (counted steps (Nat.le_refl _))
  intro step within
  induction step with
  | zero => exact Nat.le_of_eq (Nat.zero_add _)
  | succ step inductionHypothesis =>
      have shorter := rises.length_lt (Nat.lt_add_one step) within
      have counted := inductionHypothesis (Nat.le_of_succ_le within)
      omega

/-- What is met again on the way up is met at once. -/
theorem climbs_iff_rises {path : Text} (nonempty : path ≠ []) {steps : Nat} :
    Climbs path steps ↔ Rises path steps := by
  constructor
  · intro climbs step earlier
    rcases climbs (step + 1) earlier with ⟨somewhere, fresh⟩
    exact ⟨somewhere, (fresh step (Nat.lt_succ_self step)).symm⟩
  · intro rises step within
    constructor
    · cases step with
      | zero => exact nonempty
      | succ step => exact (rises step within).1
    · intro earlier before same
      have shorter := rises.length_lt before within
      rw [same] at shorter
      exact absurd shorter (Nat.lt_irrefl _)

/-! ## Steps up from a normal form -/

/-- A path with a slash is cut behind its last one, and the slashes there go too unless there is
nothing else. -/
theorem parent_append_cons (front : Text) {name : Text} (whole : '/' ∉ name) :
    parent (front ++ '/' :: name) =
      if (front ++ ['/']).all (· == '/') then front ++ ['/']
      else Text.dropEndWhile (· == '/') front := by
  have head : ((front ++ '/' :: name).reverse.dropWhile (· != '/')).reverse = front ++ ['/'] := by
    have passed : ∀ c ∈ name.reverse, (c != '/') = true := fun c held =>
      bne_iff_ne.mpr fun slash => whole (slash ▸ List.mem_reverse.mp held)
    have reversed : (front ++ '/' :: name).reverse = name.reverse ++ '/' :: front.reverse := by
      rw [List.reverse_append, List.reverse_cons, List.append_assoc, List.singleton_append]
    rw [reversed, List.dropWhile_append_of_pos passed, List.dropWhile_cons_of_neg (by decide),
      List.reverse_cons, List.reverse_reverse]
  have dropped : Text.dropEndWhile (· == '/') (front ++ ['/']) =
      Text.dropEndWhile (· == '/') front := List.rdropWhile_concat_pos _ _ _ rfl
  unfold parent
  dsimp only
  rw [head, dropped]

variable {names : List Text}

/-- From what stands right below the root a step up leads to the root. -/
theorem parent_root_append (slashes : Nat) {name : Text} (whole : '/' ∉ name) :
    parent (render (slashes + 1) [] ++ name) = render (slashes + 1) [] := by
  have slashesOnly : (List.replicate slashes '/' ++ ['/']).all (· == '/') = true := by simp
  rw [render_nil, List.replicate_succ', List.append_assoc, List.singleton_append,
    parent_append_cons _ whole, if_pos slashesOnly]

/-- A step up from a normal form takes the last name away. -/
theorem parent_render (isStep : ∀ name ∈ names, IsStep name) (slashes : Nat) :
    parent (render (slashes + 1) names) = render (slashes + 1) names.dropLast := by
  rcases List.eq_nil_or_concat names with rfl | ⟨front, last, rfl⟩
  · have atRoot := parent_root_append slashes List.not_mem_nil
    rw [List.append_nil] at atRoot
    exact atRoot
  · rw [List.concat_eq_append] at isStep ⊢
    have whole := (isStep last (List.mem_append_right _ List.mem_cons_self)).whole
    rw [List.dropLast_concat, render_concat]
    split
    · next top => rw [parent_root_append slashes whole, top]
    · next onward =>
        have kept := dropEndWhile_render
          (fun name member => isStep name (List.mem_append_left _ member)) onward slashes
        have named : ¬ (render (slashes + 1) front ++ ['/']).all (· == '/') = true := by
          intro slashesOnly
          rw [List.all_append, Bool.and_eq_true] at slashesOnly
          have nothing : Text.dropEndWhile (· == '/') (render (slashes + 1) front) = [] :=
            List.rdropWhile_eq_nil_iff.mpr (List.all_eq_true.mp slashesOnly.1)
          exact render_ne_nil _ _ (kept.symm.trans nothing)
        rw [parent_append_cons _ whole, if_neg named, kept]

/-- However many steps lead up from a normal form, they lead to a beginning of its names. -/
theorem exists_iterate_parent_render (isStep : ∀ name ∈ names, IsStep name) (slashes steps : Nat) :
    ∃ front, front <+: names ∧
      parent^[steps] (render (slashes + 1) names) = render (slashes + 1) front := by
  induction steps with
  | zero => exact ⟨names, List.prefix_rfl, rfl⟩
  | succ steps inductionHypothesis =>
      rcases inductionHypothesis with ⟨front, beginning, led⟩
      refine ⟨front.dropLast, (List.dropLast_prefix front).trans beginning, ?_⟩
      rw [Function.iterate_succ_apply', led]
      exact parent_render (fun name member => isStep name (beginning.subset member)) slashes

end Path
end Crosslink

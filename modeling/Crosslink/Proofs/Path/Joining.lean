import Crosslink.Proofs.Path.Settled

namespace Crosslink
namespace Path

/-!
Joined paths.  Parts are put together before anything is settled, so a joined path has the root of
the first part that is not empty and what remains of the tracks of all of them.  Names that were
settled may be settled again together with what stands behind them; so parts can be joined in
steps.  A step that has nothing to join is the exception: it leads to `.`, and parts with a root
lose it behind that.
-/

/-! ## Parts -/

/-- The parts of a path that are not empty, with a slash between neighbours. -/
def joined (parts : List Text) : Text :=
  Text.join ['/'] (parts.filter fun part => !part.isEmpty)

@[simp] theorem joined_cons_nil (parts : List Text) : joined ([] :: parts) = joined parts := rfl

@[simp] theorem joined_singleton (part : Text) : joined [part] = part := by
  cases part with
  | nil => rfl
  | cons c rest => exact Text.join_singleton ['/'] (c :: rest)

/-- A part that is not empty stands first, and the others behind a slash if any is left. -/
theorem joined_cons {part : Text} (nonempty : part ≠ []) (parts : List Text) :
    joined (part :: parts) = part ∧ joined parts = [] ∨
      joined (part :: parts) = part ++ '/' :: joined parts := by
  have kept : ((part :: parts).filter fun part => !part.isEmpty) =
      part :: parts.filter fun part => !part.isEmpty := by
    refine List.filter_cons_of_pos ?_
    rw [Bool.not_eq_true', Bool.eq_false_iff]
    exact fun empty => nonempty (List.isEmpty_iff.mp empty)
  rw [joined, joined, kept]
  cases parts.filter fun part => !part.isEmpty with
  | nil => exact Or.inl ⟨Text.join_singleton ['/'] part, rfl⟩
  | cons second more =>
      rw [Text.join_cons_cons, List.append_assoc]
      exact Or.inr rfl

theorem track_joined (parts : List Text) : track (joined parts) = parts.flatMap track := by
  induction parts with
  | nil => rfl
  | cons part rest inductionHypothesis =>
      rw [List.flatMap_cons, ← inductionHypothesis]
      by_cases empty : part = []
      · rw [empty, joined_cons_nil]
        rfl
      · rcases joined_cons empty rest with ⟨alone, nothing⟩ | behind
        · rw [alone, nothing]
          exact (List.append_nil _).symm
        · rw [behind, track_append_cons]

/-- The first part that is not empty decides the root. -/
theorem isAbsolute_joined_cons {part : Text} (nonempty : part ≠ []) (parts : List Text) :
    isAbsolute (joined (part :: parts)) = isAbsolute part := by
  rcases joined_cons nonempty parts with ⟨alone, _⟩ | behind
  · rw [alone]
  · rw [behind, isAbsolute_append nonempty]

theorem isAbsolute_joined_append {parts : List Text} (given : ∃ part ∈ parts, part ≠ [])
    (more : List Text) : isAbsolute (joined (parts ++ more)) = isAbsolute (joined parts) := by
  induction parts with
  | nil =>
      rcases given with ⟨_, member, _⟩
      cases member
  | cons part rest inductionHypothesis =>
      rw [List.cons_append]
      by_cases empty : part = []
      · rw [empty, joined_cons_nil, joined_cons_nil]
        refine inductionHypothesis ?_
        rcases given with ⟨other, member, nonempty⟩
        rcases List.mem_cons.mp member with same | later
        · exact absurd (same.trans empty) nonempty
        · exact ⟨other, later, nonempty⟩
      · rw [isAbsolute_joined_cons empty, isAbsolute_joined_cons empty]

/-! ## The path of joined parts -/

theorem concat_eq_render (parts : List Text) :
    concat parts = render (if isAbsolute (joined parts) then 1 else 0)
      (settle (isAbsolute (joined parts)) (track (joined parts))) := by
  have shape : concat parts =
      if (joined parts).isEmpty then here
      else render (if isAbsolute (joined parts) then 1 else 0)
        (settle (isAbsolute (joined parts)) ((joined parts).splitOn '/')) := rfl
  rw [settle_track, shape]
  by_cases nothing : joined parts = []
  · rw [nothing]
    rfl
  · exact if_neg fun empty => nothing (List.isEmpty_iff.mp empty)

theorem isAbsolute_concat (parts : List Text) :
    isAbsolute (concat parts) = isAbsolute (joined parts) := by
  rw [concat_eq_render, ← rootSlashes_bne_zero,
    rootSlashes_render (by split <;> decide) fun _ member => isStep_of_mem_settle_track member]
  cases isAbsolute (joined parts) <;> rfl

theorem track_concat (parts : List Text) :
    track (concat parts) = settle (isAbsolute (joined parts)) (track (joined parts)) := by
  rw [concat_eq_render]
  exact track_render _ fun _ member => isStep_of_mem_settle_track member

/-- Parts of which one is not empty may be joined before the others are put behind them. -/
theorem concat_concat_cons {parts : List Text} (given : ∃ part ∈ parts, part ≠ [])
    (more : List Text) : concat (concat parts :: more) = concat (parts ++ more) := by
  have root : isAbsolute (joined (concat parts :: more)) = isAbsolute (joined (parts ++ more)) := by
    rw [isAbsolute_joined_cons (concat_ne_nil parts), isAbsolute_concat,
      isAbsolute_joined_append given]
  have tracked : track (joined (concat parts :: more)) =
      settle (isAbsolute (joined (parts ++ more))) (track (joined parts)) ++ more.flatMap track := by
    rw [track_joined, List.flatMap_cons, track_concat, isAbsolute_joined_append given]
  rw [concat_eq_render (concat parts :: more), concat_eq_render (parts ++ more), root, tracked,
    settle_settle_append, track_joined (parts ++ more), List.flatMap_append, track_joined parts]

/-! ## Canonical paths -/

def components (path : Text) : List Text :=
  Text.splitOn '/' (if isAbsolute path then path.tail else path)

structure IsCanonical (path : Text) : Prop where
  nonempty : path ≠ []
  /-- No component is empty or `.`, but for those of the two paths that lead through no name. -/
  plain : path = here ∨ path = ['/'] ∨ ∀ name ∈ components path, name ≠ [] ∧ name ≠ here
  /-- Every `..` component stands in front of all names, and there is none behind a root. -/
  climbs : ∃ steps names, components path = List.replicate steps up ++ names ∧ up ∉ names ∧
    (isAbsolute path = true → steps = 0)

/-- Names kept so far, the last of them in front, with the `..` components behind all others. -/
private def Climbing (rooted : Bool) (kept : List Text) : Prop :=
  ∃ steps names, kept = names ++ List.replicate steps up ∧ up ∉ names ∧ (rooted = true → steps = 0)

private theorem Climbing.push {rooted : Bool} {kept : List Text} (climbing : Climbing rooted kept)
    (name : Text) : Climbing rooted (push rooted kept name) := by
  unfold Path.push
  split
  · exact climbing
  · rcases climbing with ⟨steps, names, rfl, named, level⟩
    split
    · match names, steps with
      | [], 0 =>
          cases rooted with
          | true => exact ⟨0, [], rfl, List.not_mem_nil, fun _ => rfl⟩
          | false => exact ⟨1, [], rfl, List.not_mem_nil, nofun⟩
      | [], steps + 1 =>
          refine ⟨steps + 2, [], if_pos rfl, List.not_mem_nil, fun isRooted => ?_⟩
          cases level isRooted
      | top :: rest, steps =>
          have other : top ≠ up := fun same => named (same ▸ List.mem_cons_self)
          refine ⟨steps, rest, if_neg other, fun held => ?_, level⟩
          exact named (List.mem_cons_of_mem top held)
    · next other =>
        refine ⟨steps, name :: names, rfl, fun held => ?_, level⟩
        rcases List.mem_cons.mp held with same | earlier
        · exact other same.symm
        · exact named earlier

/-- What remains of components climbs first, if it has no root, and then descends. -/
theorem exists_settle_eq (rooted : Bool) (components : List Text) :
    ∃ steps names, settle rooted components = List.replicate steps up ++ names ∧ up ∉ names ∧
      (rooted = true → steps = 0) := by
  suffices general : ∀ kept, Climbing rooted kept →
      Climbing rooted (components.foldl (Path.push rooted) kept) by
    rcases general [] ⟨0, [], rfl, List.not_mem_nil, fun _ => rfl⟩ with
      ⟨steps, names, folded, named, level⟩
    refine ⟨steps, names.reverse, ?_, fun held => named (List.mem_reverse.mp held), level⟩
    rw [settle, folded, List.reverse_append, List.reverse_replicate]
  induction components with
  | nil => exact fun _ climbing => climbing
  | cons name rest inductionHypothesis =>
      exact fun kept climbing => inductionHypothesis _ (climbing.push name)

/-- Components that climb first and then descend remain as they are. -/
theorem isSettled_of_climbs {rooted : Bool} {steps : Nat} {names : List Text}
    (isName : ∀ name ∈ names, IsName name) (level : rooted = true → steps = 0) :
    IsSettled rooted (List.replicate steps up ++ names) := by
  induction names using List.reverseRecOn with
  | nil =>
      rw [List.append_nil]
      induction steps with
      | zero => rfl
      | succ steps inductionHypothesis =>
          cases rooted with
          | true => cases level rfl
          | false =>
              rw [List.replicate_succ']
              refine (inductionHypothesis nofun).concat ?_
              rw [List.reverse_replicate]
              cases steps <;> rfl
  | append_singleton names name inductionHypothesis =>
      rw [← List.append_assoc]
      refine (inductionHypothesis fun other member =>
        isName other (List.mem_append_left _ member)).concat ?_
      exact push_name (isName name (List.mem_append_right names List.mem_cons_self)) _

theorem components_render (rooted : Bool) {names : List Text} (onward : names ≠ [])
    (isStep : ∀ name ∈ names, IsStep name) :
    components (render (if rooted then 1 else 0) names) = names := by
  have cut : (Text.join ['/'] names).splitOn '/' = names :=
    Text.splitOn_join onward fun name member => (isStep name member).whole
  cases rooted with
  | true => exact cut
  | false =>
      have written : render 0 names = Text.join ['/'] names :=
        render_zero_of_ne_nil onward fun name member => (isStep name member).nonempty
      rw [if_neg Bool.false_ne_true, written, components, isAbsolute_join isStep,
        if_neg Bool.false_ne_true, cut]

theorem render_components {path : Text} (isStep : ∀ name ∈ components path, IsStep name) :
    render (if isAbsolute path then 1 else 0) (components path) = path := by
  have onward : components path ≠ [] := Text.splitOn_ne_nil '/' _
  cases absolute : isAbsolute path with
  | true =>
      rcases isAbsolute_iff.mp absolute with ⟨rest, rfl⟩
      exact congrArg ('/' :: ·) (Text.join_splitOn '/' rest)
  | false =>
      have written := render_zero_of_ne_nil onward fun name member => (isStep name member).nonempty
      refine written.trans ?_
      rw [components, absolute, if_neg Bool.false_ne_true, Text.join_splitOn]

theorem isCanonical_here : IsCanonical here :=
  ⟨by decide, .inl rfl, 0, [here], rfl, by decide, fun _ => rfl⟩

theorem isCanonical_root : IsCanonical ['/'] :=
  ⟨by decide, .inr (.inl rfl), 0, [[]], rfl, by decide, fun _ => rfl⟩

theorem isCanonical_concat (parts : List Text) : IsCanonical (concat parts) := by
  have isStep : ∀ name ∈ settle (isAbsolute (joined parts)) (track (joined parts)), IsStep name :=
    fun _ member => isStep_of_mem_settle_track member
  rcases exists_settle_eq (isAbsolute (joined parts)) (track (joined parts)) with
    ⟨steps, names, settled, named, level⟩
  by_cases top : settle (isAbsolute (joined parts)) (track (joined parts)) = []
  · rw [concat_eq_render, top]
    cases isAbsolute (joined parts) with
    | true => exact isCanonical_root
    | false => exact isCanonical_here
  · have cut : components (concat parts) = _ :=
      (congrArg components (concat_eq_render parts)).trans (components_render _ top isStep)
    refine ⟨concat_ne_nil parts, .inr (.inr fun name member => ?_), steps, names, ?_, named, ?_⟩
    · rw [cut] at member
      exact ⟨(isStep name member).nonempty, (isStep name member).notHere⟩
    · rw [cut, settled]
    · rwa [isAbsolute_concat]

theorem concat_singleton_eq_iff {path : Text} : concat [path] = path ↔ IsCanonical path := by
  refine ⟨fun same => same ▸ isCanonical_concat [path], fun canonical => ?_⟩
  rcases canonical.plain with rfl | rfl | plain
  · rfl
  · rfl
  · have isStep : ∀ name ∈ components path, IsStep name := fun name member =>
      ⟨(plain name member).1, (plain name member).2, Text.not_mem_of_mem_splitOn member⟩
    have written := render_components isStep
    have led : track path = components path := by
      rw [← track_render (if isAbsolute path then 1 else 0) isStep, written]
    rcases canonical.climbs with ⟨steps, names, cut, named, level⟩
    have isName : ∀ name ∈ names, IsName name := fun name member => by
      have step := isStep name (cut ▸ List.mem_append_right _ member)
      exact ⟨step.nonempty, step.notHere, fun same => named (same ▸ member), step.whole⟩
    have settled := isSettled_of_climbs isName level
    rw [← cut] at settled
    rw [concat_eq_render, joined_singleton, led, settled, written]

/-! ## Joining in steps -/

/-- Parts may be joined in steps, and however they are joined the result is canonical: joining it
again changes nothing. -/
theorem concat_canonical {a b : Text} (given : a ≠ [] ∨ b ≠ []) (c : Text) (parts : List Text) :
    concat [concat [a, b], c] = concat [a, b, c] ∧
      IsCanonical (concat parts) ∧ concat [concat parts] = concat parts := by
  have canonical := isCanonical_concat parts
  refine ⟨concat_concat_cons ?_ [c], canonical, concat_singleton_eq_iff.mpr canonical⟩
  rcases given with first | second
  · exact ⟨a, List.mem_cons_self, first⟩
  · exact ⟨b, List.mem_cons_of_mem a List.mem_cons_self, second⟩

/-- The first two parts lead nowhere, and the last one climbs out of what they lead to. -/
theorem concat_canonical_climbing :
    (("a" : Text) ≠ [] ∨ ("./.." : Text) ≠ []) ∧
      concat [concat ["a", "./.."], "/../b//."] = concat ["a", "./..", "/../b//."] ∧
      IsCanonical (concat ["a", "./..", "/../b//."]) ∧
      concat [concat ["a", "./..", "/../b//."]] = concat ["a", "./..", "/../b//."] ∧
      concat ["a", "./..", "/../b//."] = "../b" := by
  have given : ("a" : Text) ≠ [] ∨ ("./.." : Text) ≠ [] := by decide
  have held := concat_canonical given "/../b//." ["a", "./..", "/../b//."]
  exact ⟨given, held.1, held.2.1, held.2.2, by decide⟩

/-- Without a part that is not empty the first step leads to `.`, and a root behind it is lost. -/
example : concat [concat [[], []], "/a"] = "a" ∧ concat [[], [], "/a"] = "/a" := by decide

end Path
end Crosslink

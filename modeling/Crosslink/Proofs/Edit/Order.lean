import Crosslink.Edit.Apply

namespace Crosslink
namespace Edit

/-!
The order in which edits by position are made.  Sorting loses no edit and invents none,
and it leaves the edits descending by start.  Where all starts differ that fixes the
order, so it no longer matters how the edits were listed.
-/

theorem insertDescending_perm (placed : Placed) (sorted : List Placed) :
    (insertDescending placed sorted).Perm (placed :: sorted) := by
  induction sorted with
  | nil => exact List.Perm.refl _
  | cons first rest inductionHypothesis =>
      rw [insertDescending]
      split
      · exact List.Perm.refl _
      · exact (inductionHypothesis.cons first).trans (List.Perm.swap placed first rest)

theorem insertDescending_pairwise (placed : Placed) (sorted : List Placed)
    (descends : sorted.Pairwise fun first second => second.start ≤ first.start) :
    (insertDescending placed sorted).Pairwise
      fun first second => second.start ≤ first.start := by
  induction sorted with
  | nil => exact List.pairwise_singleton _ _
  | cons first rest inductionHypothesis =>
      have parts := List.pairwise_cons.mp descends
      rw [insertDescending]
      split
      · next earlier =>
          refine List.pairwise_cons.mpr ⟨?_, descends⟩
          intro other member
          rcases List.mem_cons.mp member with same | later
          · rw [same]
            exact Int.le_of_lt earlier
          · exact Int.le_trans (parts.1 other later) (Int.le_of_lt earlier)
      · next notEarlier =>
          refine List.pairwise_cons.mpr ⟨?_, inductionHypothesis parts.2⟩
          intro other member
          rcases List.mem_cons.mp ((insertDescending_perm placed rest).mem_iff.mp member) with
            same | later
          · rw [same]
            exact Int.not_lt.mp notEarlier
          · exact parts.1 other later

private theorem foldl_insertDescending_perm (placed sorted : List Placed) :
    (placed.foldl (fun sorted next => insertDescending next sorted) sorted).Perm
      (placed ++ sorted) := by
  induction placed generalizing sorted with
  | nil => exact List.Perm.refl _
  | cons first rest inductionHypothesis =>
      rw [List.foldl_cons]
      exact (inductionHypothesis _).trans
        (((insertDescending_perm first sorted).append_left rest).trans List.perm_middle)

private theorem foldl_insertDescending_pairwise (placed sorted : List Placed)
    (descends : sorted.Pairwise fun first second => second.start ≤ first.start) :
    (placed.foldl (fun sorted next => insertDescending next sorted) sorted).Pairwise
      fun first second => second.start ≤ first.start := by
  induction placed generalizing sorted with
  | nil => exact descends
  | cons first rest inductionHypothesis =>
      exact inductionHypothesis _ (insertDescending_pairwise first sorted descends)

theorem descending_perm (placed : List Placed) : (descending placed).Perm placed := by
  have moved := foldl_insertDescending_perm placed []
  rw [List.append_nil] at moved
  exact moved

theorem descending_pairwise (placed : List Placed) :
    (descending placed).Pairwise fun first second => second.start ≤ first.start :=
  foldl_insertDescending_pairwise placed [] List.Pairwise.nil

private theorem eq_of_start_eq {edits : List Placed}
    (different : edits.Pairwise fun one other => one.start ≠ other.start) {one other : Placed}
    (member : one ∈ edits) (otherMember : other ∈ edits) (same : one.start = other.start) :
    one = other := by
  let Agree (one other : Placed) : Prop := one.start = other.start → one = other
  have forward : edits.Pairwise Agree := different.imp fun apart equal => absurd equal apart
  have backward : edits.Pairwise (flip Agree) :=
    different.imp fun apart equal => absurd equal.symm apart
  exact List.Pairwise.forall_of_forall_of_flip (R := Agree) (fun _ _ _ => rfl) forward backward
    member otherMember same

/-- Sorting forgets how edits were listed, as long as no two of them begin at one
position. -/
theorem descending_eq_of_perm {first second : List Placed} (permuted : first.Perm second)
    (different : first.Pairwise fun one other => one.start ≠ other.start) :
    descending first = descending second := by
  refine List.Perm.eq_of_pairwise ?_ (descending_pairwise first) (descending_pairwise second)
    (((descending_perm first).trans permuted).trans (descending_perm second).symm)
  intro one other inFirst inSecond below above
  have member := (descending_perm first).mem_iff.mp inFirst
  have otherMember := permuted.mem_iff.mpr ((descending_perm second).mem_iff.mp inSecond)
  exact eq_of_start_eq different member otherMember (Int.le_antisymm above below)

end Edit
end Crosslink

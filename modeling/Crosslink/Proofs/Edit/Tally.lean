import Crosslink.Edit.Apply
import Crosslink.Edit.Tally
import Crosslink.Proofs.Data.Entries

namespace Crosslink

/-!
What adding to a tally does to its counts and to their sum.  The order in which kinds first
came up is part of a tally and no part of its counts, so what is said of single kinds is
stated on `count`, or on `lookup` where a kind that never came up is to be told from others.
-/

namespace Tally

@[simp] theorem count_nil (kind : Text) : count [] kind = 0 := rfl

@[simp] theorem count_cons (entry : Text × Nat) (tally : Tally) (kind : Text) :
    count (entry :: tally) kind = if kind = entry.1 then entry.2 else count tally kind := by
  rcases entry with ⟨name, times⟩
  by_cases same : kind = name
  · simp only [count, List.lookup_cons, same, beq_self_eq_true, Option.getD_some, if_true]
  · simp only [count, List.lookup_cons, beq_eq_false_iff_ne.mpr same, if_neg same]

theorem count_add (kind : Text) (times : Nat) (tally : Tally) (other : Text) :
    count (add kind times tally) other =
      count tally other + if kind = other then times else 0 := by
  induction tally with
  | nil =>
      rw [add, count_cons, count_nil, Nat.zero_add]
      exact ite_congr (propext eq_comm) (fun _ => rfl) (fun _ => rfl)
  | cons entry rest inductionHypothesis =>
      by_cases found : entry.1 = kind
      · rw [add, if_pos found, count_cons, count_cons, found]
        by_cases same : kind = other
        · simp only [same, if_true]
        · simp only [if_neg same, if_neg (Ne.symm same), Nat.add_zero]
      · rw [add, if_neg found, count_cons, count_cons, inductionHypothesis]
        by_cases first : other = entry.1
        · have different : ¬ kind = other := fun equal => found (first.symm.trans equal.symm)
          simp only [if_pos first, if_neg different, Nat.add_zero]
        · simp only [if_neg first]

/-- Counting some kinds one after the other. -/
theorem count_foldl_add (kinds : List Text) (tally : Tally) (kind : Text) :
    count (kinds.foldl (fun tally kind => add kind 1 tally) tally) kind =
      count tally kind + kinds.count kind := by
  induction kinds generalizing tally with
  | nil => rfl
  | cons first rest inductionHypothesis =>
      rw [List.foldl_cons, inductionHypothesis, count_add, List.count_cons, Nat.add_assoc,
        Nat.add_comm (rest.count kind)]
      by_cases same : first = kind
      · simp only [same, beq_self_eq_true, if_true]
      · simp only [if_neg same, beq_eq_false_iff_ne.mpr same, Bool.false_eq_true, if_false]

/-! ## The sum of the counts -/

@[simp] theorem total_cons (entry : Text × Nat) (tally : Tally) :
    total (entry :: tally) = entry.2 + total tally := by
  rw [total, total, ← List.sum_eq_foldl_nat, ← List.sum_eq_foldl_nat, List.map_cons,
    List.sum_cons]

@[simp] theorem total_add (kind : Text) (times : Nat) (tally : Tally) :
    total (add kind times tally) = total tally + times := by
  induction tally with
  | nil =>
      rw [add, total_cons]
      exact Nat.add_comm times (total [])
  | cons entry rest inductionHypothesis =>
      rw [add]
      split
      · rw [total_cons, total_cons]
        omega
      · rw [total_cons, total_cons, inductionHypothesis]
        omega

/-- A merged tally counts what both tallies count. -/
theorem total_merge (tally more : Tally) : total (tally.merge more) = total tally + total more := by
  induction more generalizing tally with
  | nil => rfl
  | cons entry rest inductionHypothesis =>
      have merged := inductionHypothesis (add entry.1 entry.2 tally)
      rw [total_add] at merged
      rw [total_cons, ← Nat.add_assoc]
      exact merged

/-! ## Tallies as maps -/

/-- Two tallies are the same map from kinds to counts. -/
def Same (tally other : Tally) : Prop :=
  ∀ kind, tally.lookup kind = other.lookup kind

theorem lookup_add (kind : Text) (times : Nat) (tally : Tally) (other : Text) :
    (add kind times tally).lookup other =
      if other = kind then some (count tally kind + times) else tally.lookup other := by
  induction tally with
  | nil => rw [add, Entries.lookup_cons, count_nil, Nat.zero_add]
  | cons entry rest inductionHypothesis =>
      rw [add, count_cons, Entries.lookup_cons entry]
      split
      · next found =>
          rw [found, if_pos rfl, Entries.lookup_cons]
          by_cases same : other = kind
          · rw [if_pos same, if_pos same]
          · rw [if_neg same, if_neg same, if_neg same]
      · next different =>
          have unchanged : ¬ kind = entry.1 := fun equal => different equal.symm
          rw [Entries.lookup_cons, inductionHypothesis, if_neg unchanged]
          by_cases first : other = entry.1
          · have other : ¬ other = kind := fun equal => different (first.symm.trans equal)
            rw [if_pos first, if_neg other, if_pos first]
          · rw [if_neg first, if_neg first]

theorem Same.add {tally other : Tally} (same : Same tally other) (kind : Text) (times : Nat) :
    Same (add kind times tally) (add kind times other) := by
  intro name
  rw [lookup_add, lookup_add, count, count, same kind, same name]

/-- Two additions may change places. -/
theorem same_add_add (tally : Tally) (kind other : Text) (times more : Nat) :
    Same (add kind times (add other more tally)) (add other more (add kind times tally)) := by
  intro name
  simp only [lookup_add, count_add]
  by_cases first : name = kind <;> by_cases second : name = other
  · have equal : kind = other := first.symm.trans second
    simp only [first, equal, if_true]
    congr 1
    omega
  · have different : ¬ other = kind := fun equal => second (first.trans equal.symm)
    simp only [if_pos first, if_neg second, if_neg different, Nat.add_zero]
  · have different : ¬ kind = other := fun equal => first (second.trans equal.symm)
    simp only [if_neg first, if_pos second, if_neg different, Nat.add_zero]
  · simp only [if_neg first, if_neg second]

/-- The order in which counts are merged into a tally plays no part in the map. -/
theorem Same.merge {tally other more again : Tally} (same : Same tally other)
    (permuted : more.Perm again) : Same (tally.merge more) (other.merge again) := by
  induction permuted generalizing tally other with
  | nil => exact same
  | cons entry _ inductionHypothesis => exact inductionHypothesis (same.add entry.1 entry.2)
  | swap first second rest =>
      have swapped : ∀ (more : List (Text × Nat)) {tally other : Tally}, Same tally other →
          Same (tally.merge more) (other.merge more) := by
        intro more
        induction more with
        | nil => exact fun same => same
        | cons entry _ inductionHypothesis =>
            exact fun same => inductionHypothesis (same.add entry.1 entry.2)
      apply swapped rest
      intro name
      rw [same_add_add tally first.1 second.1 first.2 second.2 name]
      exact ((same.add first.1 first.2).add second.1 second.2) name
  | trans _ _ first second =>
      intro name
      exact (first (fun _ => rfl) name).trans (second same name)

/-- Merging tallies one after the other is merging all their counts. -/
theorem foldl_merge {α : Type} (tallyOf : α → Tally) (items : List α) (tally : Tally) :
    items.foldl (fun tally item => tally.merge (tallyOf item)) tally =
      tally.merge (items.flatMap tallyOf) := by
  induction items generalizing tally with
  | nil => rfl
  | cons first rest inductionHypothesis =>
      rw [List.foldl_cons, inductionHypothesis, List.flatMap_cons]
      exact (List.foldl_append ..).symm

/-! ## Tallies of what has come up -/

/-- A tally of what has come up: each kind is listed once, and only if it has come up. -/
structure Proper (tally : Tally) : Prop where
  /-- No kind is listed twice. -/
  distinct : (tally.map (·.1)).Nodup
  /-- Every kind that is listed has come up. -/
  positive : ∀ kind times, tally.lookup kind = some times → 0 < times

theorem mem_keys_add {kind other : Text} {times : Nat} {tally : Tally} :
    other ∈ (add kind times tally).map (·.1) ↔ other = kind ∨ other ∈ tally.map (·.1) := by
  rw [← Entries.isSome_lookup_iff, ← Entries.isSome_lookup_iff, lookup_add]
  split
  · next same => exact iff_of_true rfl (Or.inl same)
  · next different => exact (or_iff_right different).symm

theorem nodup_keys_add (kind : Text) (times : Nat) {tally : Tally}
    (distinct : (tally.map (·.1)).Nodup) : ((add kind times tally).map (·.1)).Nodup := by
  induction tally with
  | nil => exact List.pairwise_singleton _ kind
  | cons entry rest inductionHypothesis =>
      rcases List.nodup_cons.mp distinct with ⟨absent, restDistinct⟩
      rw [add]
      split
      · next found => exact List.nodup_cons.mpr ⟨found ▸ absent, restDistinct⟩
      · next different =>
          refine List.nodup_cons.mpr ⟨fun listed => ?_, inductionHypothesis restDistinct⟩
          exact (mem_keys_add.mp listed).elim different absent

theorem Proper.nil : Proper [] := ⟨List.nodup_nil, fun _ _ found => nomatch found⟩

theorem Proper.add {tally : Tally} (proper : Proper tally) (kind : Text) {times : Nat}
    (some : 0 < times) : Proper (Tally.add kind times tally) where
  distinct := nodup_keys_add kind times proper.distinct
  positive other count found := by
    rw [lookup_add] at found
    split at found
    · cases found
      exact Nat.add_pos_right _ some
    · exact proper.positive other count found

theorem Proper.isSome_lookup_iff {tally : Tally} (proper : Proper tally) (kind : Text) :
    (tally.lookup kind).isSome = true ↔ 0 < tally.count kind := by
  rw [count]
  cases found : tally.lookup kind with
  | none => exact iff_of_false Bool.false_ne_true (Nat.lt_irrefl 0)
  | some times => exact iff_of_true rfl (proper.positive kind times found)

end Tally

/-!
## Balances

The number of edits made and the sum of the counts by kind never part: an edit that is made
adds one to both, an edit that is left out adds to neither.
-/

namespace Edit

namespace Outcome

/-- The counts by kind sum up to the number of edits made. -/
def Balanced (outcome : Outcome) : Prop :=
  outcome.tally.total = outcome.applied

@[simp] theorem balanced_start (content : Text) : (start content).Balanced := rfl

theorem Balanced.count {outcome : Outcome} (balanced : outcome.Balanced) (content kind : Text) :
    (outcome.count content kind).Balanced := by
  rw [Balanced, Outcome.count, Tally.total_add, balanced]

theorem Balanced.miss {outcome : Outcome} (balanced : outcome.Balanced)
    (replacement : Replacement) : (outcome.miss replacement).Balanced :=
  balanced

end Outcome

theorem balanced_stepAt (window : Int) {outcome : Outcome} (balanced : outcome.Balanced)
    (placed : Placed) : (stepAt window outcome placed).Balanced := by
  simp only [stepAt]
  split
  · exact balanced.count _ _
  · exact balanced.miss _

theorem balanced_stepOnLine {outcome : Outcome} (balanced : outcome.Balanced)
    (replacement : Replacement) : (stepOnLine outcome replacement).Balanced := by
  simp only [stepOnLine]
  split
  · exact balanced.miss _
  · exact balanced.count _ _

/-- Of any list of edits, as many are counted by kind as are made. -/
theorem balanced_apply (window : Int) (content : Text) (replacements : List Replacement) :
    (apply window content replacements).Balanced :=
  List.foldlRecOn _ stepOnLine
    (List.foldlRecOn _ (stepAt window) (Outcome.balanced_start content)
      fun _ balanced placed _ => balanced_stepAt window balanced placed)
    fun _ balanced replacement _ => balanced_stepOnLine balanced replacement

end Edit

end Crosslink

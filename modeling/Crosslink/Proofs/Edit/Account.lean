import Crosslink.Proofs.Edit.Tally
import Crosslink.Proofs.Edit.Simultaneous

namespace Crosslink

/-!
What an outcome tells of the edits that were asked for.  Each of them is tried once, and it is
either made, which adds one to the count of its kind, or left out, which adds it to those left
out and changes nothing else.  So for each kind the edits made and the edits left out are the
edits asked for, whatever their ranges, lines and texts are; and whether a file is to be written
back can be read off the kinds that are listed.
-/

/-- An edit that names no kind, or an empty one, counts as an update. -/
theorem Replacement.kind_eq_getD (replacement : Replacement) :
    replacement.kind = (replacement.kind?.filter (· ≠ [])).getD Replacement.updated := by
  unfold Replacement.kind
  split
  · next named =>
      rw [named]
      rfl
  · next unnamed =>
      cases named : replacement.kind? with
      | none => rfl
      | some name =>
          cases name with
          | nil => rfl
          | cons c rest => exact absurd named (unnamed c rest)

namespace Edit

/-- What an outcome tells of the edits that have been tried in some text. -/
structure Outcome.Accounts (content : Text) (tried : List Replacement) (outcome : Outcome) :
    Prop where
  /-- Each edit has been made or left out. -/
  settled : outcome.applied + outcome.missed.length = tried.length
  /-- Of each kind, the edits made and those left out are the edits tried. -/
  counted : ∀ kind, outcome.tally.count kind +
      outcome.missed.countP (fun replacement => replacement.kind = kind) =
    tried.countP fun replacement => replacement.kind = kind
  /-- Edits left out are among those tried. -/
  among : ∀ replacement ∈ outcome.missed, replacement ∈ tried
  /-- A kind is listed once, and only if an edit of it has been made. -/
  proper : outcome.tally.Proper
  /-- A text in which no edit has been made is as it was. -/
  untouched : outcome.applied = 0 → outcome.content = content

namespace Outcome.Accounts

variable {content : Text} {tried : List Replacement} {outcome : Outcome}

theorem start (content : Text) : (Outcome.start content).Accounts content [] where
  settled := rfl
  counted _ := rfl
  among _ member := member
  proper := .nil
  untouched _ := rfl

theorem count (accounts : outcome.Accounts content tried) (changed : Text)
    (replacement : Replacement) :
    (outcome.count changed replacement.kind).Accounts content (tried ++ [replacement]) where
  settled := by
    rw [List.length_append, List.length_singleton, ← accounts.settled, Outcome.count]
    exact Nat.add_right_comm _ _ _
  counted kind := by
    rw [List.countP_append, List.countP_singleton, ← accounts.counted kind, Outcome.count,
      Tally.count_add]
    simp only [decide_eq_true_eq]
    exact Nat.add_right_comm _ _ _
  among other missed := List.mem_append_left _ (accounts.among other missed)
  proper := accounts.proper.add _ Nat.one_pos
  untouched none := nomatch none

theorem miss (accounts : outcome.Accounts content tried) (replacement : Replacement) :
    (outcome.miss replacement).Accounts content (tried ++ [replacement]) where
  settled := by
    rw [List.length_append, ← accounts.settled, Outcome.miss, List.length_append, Nat.add_assoc]
  counted kind := by
    rw [List.countP_append, ← accounts.counted kind, Outcome.miss, List.countP_append,
      Nat.add_assoc]
  among other missed := (List.mem_append.mp missed).elim
    (fun before => List.mem_append_left _ (accounts.among other before))
    (fun last => List.mem_append_right _ last)
  proper := accounts.proper
  untouched := accounts.untouched

theorem stepAt (accounts : outcome.Accounts content tried) (window : Int) (placed : Placed) :
    (Edit.stepAt window outcome placed).Accounts content (tried ++ [placed.replacement]) := by
  simp only [Edit.stepAt]
  split
  · exact accounts.count _ _
  · exact accounts.miss _

theorem stepOnLine (accounts : outcome.Accounts content tried) (replacement : Replacement) :
    (Edit.stepOnLine outcome replacement).Accounts content (tried ++ [replacement]) := by
  simp only [Edit.stepOnLine]
  split
  · exact accounts.miss _
  · exact accounts.count _ _

theorem foldl {α : Type} {step : Outcome → α → Outcome} (edit : α → Replacement)
    (each : ∀ {outcome : Outcome} {tried : List Replacement} (item : α),
      outcome.Accounts content tried → (step outcome item).Accounts content (tried ++ [edit item]))
    (items : List α) (accounts : outcome.Accounts content tried) :
    (items.foldl step outcome).Accounts content (tried ++ items.map edit) := by
  induction items generalizing outcome tried with
  | nil =>
      rw [List.map_nil, List.append_nil]
      exact accounts
  | cons item rest inductionHypothesis =>
      rw [List.map_cons, List.append_cons]
      exact inductionHypothesis (each item accounts)

/-- The order in which edits were tried plays no part in an account. -/
theorem of_perm (accounts : outcome.Accounts content tried) {asked : List Replacement}
    (permuted : tried.Perm asked) : outcome.Accounts content asked where
  settled := accounts.settled.trans permuted.length_eq
  counted kind := (accounts.counted kind).trans (permuted.countP_eq _)
  among replacement missed := permuted.mem_iff.mp (accounts.among replacement missed)
  proper := accounts.proper
  untouched := accounts.untouched

theorem of_lookup (accounts : outcome.Accounts content tried) {kind : Text} {times : Nat}
    (listed : outcome.tally.lookup kind = some times) :
    1 ≤ times ∧ times ≤ tried.countP fun replacement => replacement.kind = kind := by
  have counted := accounts.counted kind
  rw [Tally.count, listed, Option.getD_some] at counted
  exact ⟨accounts.proper.positive kind times listed, counted ▸ Nat.le_add_right _ _⟩

end Outcome.Accounts

/-! ## All edits of a list -/

/-- A replacement gives an edit by position if it knows its range. -/
theorem Placed.map_of?_eq_guard (replacement : Replacement) :
    (Placed.of? replacement).map (·.replacement) =
      Option.guard (fun replacement => replacement.range?.isSome) replacement := by
  rw [Placed.of?, Option.map_map, Option.guard]
  cases replacement.range? <;> rfl

theorem placed_append_unplaced_perm (replacements : List Replacement) :
    ((descending (replacements.filterMap Placed.of?)).map (·.replacement) ++
      replacements.filter fun replacement => replacement.range?.isNone).Perm replacements := by
  have back : (replacements.filterMap Placed.of?).map (·.replacement) =
      replacements.filter fun replacement => replacement.range?.isSome := by
    simp only [List.map_filterMap, Placed.map_of?_eq_guard, List.filterMap_eq_filter]
  have sorted := (descending_perm (replacements.filterMap Placed.of?)).map (·.replacement)
  have parts := List.filter_append_perm (fun replacement => replacement.range?.isSome) replacements
  rw [back] at sorted
  simp only [Option.not_isSome] at parts
  exact (sorted.append_right _).trans parts

theorem mem_of_mem_descending {replacements : List Replacement} {placed : Placed}
    (member : placed ∈ descending (replacements.filterMap Placed.of?)) :
    placed.replacement ∈ replacements :=
  (placed_append_unplaced_perm replacements).mem_iff.mp
    (List.mem_append_left _ (List.mem_map_of_mem member))

/-- An outcome accounts for every edit that was asked for. -/
theorem accounts_apply (window : Int) (content : Text) (replacements : List Replacement) :
    (apply window content replacements).Accounts content replacements := by
  have placed := (Outcome.Accounts.start content).foldl (·.replacement)
    (fun placed accounts => accounts.stepAt window placed)
    (descending (replacements.filterMap Placed.of?))
  have all := placed.foldl id
    (fun replacement accounts => accounts.stepOnLine replacement)
    (replacements.filter fun replacement => replacement.range?.isNone)
  rw [List.nil_append, List.map_id] at all
  exact all.of_perm (placed_append_unplaced_perm replacements)

/-- A file is to be written back exactly if a kind is listed for whose sake that is done. -/
theorem triggersWrite_iff {outcome : Outcome} (proper : outcome.tally.Proper) :
    outcome.triggersWrite = true ↔
      ∃ kind ∈ Replacement.writingKinds, (outcome.tally.lookup kind).isSome = true := by
  rw [Outcome.triggersWrite, decide_eq_true_eq, ← List.sum_eq_foldl_nat,
    List.sum_pos_iff_exists_pos_nat]
  simp only [List.mem_map, proper.isSome_lookup_iff]
  constructor
  · rintro ⟨_, ⟨kind, listed, rfl⟩, positive⟩
    exact ⟨kind, listed, positive⟩
  · rintro ⟨kind, listed, positive⟩
    exact ⟨_, ⟨kind, listed, rfl⟩, positive⟩

/-- Any list of edits is accounted for.  The number of edits made is the sum of the counts and no
greater than the number of edits; a kind is listed once, and only if it came up, which it did no
more often than it was asked for; what was not made was left out; without an edit made the text is
as it was; and a file is written back for the sake of four kinds only. -/
theorem apply_accounted (window : Int) (content : Text) (replacements : List Replacement) :
    let outcome := apply window content replacements
    let asked (kind : Text) := fun replacement : Replacement =>
      decide ((replacement.kind?.filter (· ≠ [])).getD "updated" = kind)
    (outcome.applied = outcome.tally.total ∧ outcome.applied ≤ replacements.length) ∧
      ((outcome.tally.map (·.1)).Nodup ∧ ∀ kind times, outcome.tally.lookup kind = some times →
        1 ≤ times ∧ times ≤ replacements.countP (asked kind)) ∧
      (∀ kind, outcome.tally.count kind + outcome.missed.countP (asked kind) =
        replacements.countP (asked kind)) ∧
      (outcome.applied = 0 → outcome.content = content) ∧
      (outcome.triggersWrite = true ↔
        ∃ kind ∈ (["normalizedFull", "patched", "pathSubstitution", "normalizedRel"] : List Text),
          (outcome.tally.lookup kind).isSome = true) := by
  have accounts := accounts_apply window content replacements
  have bounded : (apply window content replacements).applied ≤ replacements.length :=
    accounts.settled ▸ Nat.le_add_right _ _
  have kinds : ∀ kind, (fun replacement : Replacement =>
      decide ((replacement.kind?.filter (· ≠ [])).getD "updated" = kind)) =
      fun replacement => decide (replacement.kind = kind) := fun kind =>
    funext fun replacement => by rw [replacement.kind_eq_getD]; rfl
  dsimp only
  simp only [kinds]
  exact ⟨⟨(balanced_apply window content replacements).symm, bounded⟩,
    ⟨accounts.proper.distinct, fun kind times listed => accounts.of_lookup listed⟩,
    accounts.counted, accounts.untouched, triggersWrite_iff accounts.proper⟩

end Edit
end Crosslink

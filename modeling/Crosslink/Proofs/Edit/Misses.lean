import Crosslink.Proofs.Edit.Account

namespace Crosslink

/-!
Edits that are left out.  Where the ranges of the edits that know one are right and lie apart,
only edits by line can be left out; and where all edits are of one kind, that kind is the only one
that comes up, so its count is the number of edits made.
-/

namespace Tally

/-- Nothing but one kind has come up. -/
def Only (kind : Text) (tally : Tally) : Prop :=
  tally = [] ∨ ∃ times, tally = [(kind, times)]

namespace Only

variable {kind : Text} {tally more : Tally}

theorem nil (kind : Text) : Only kind [] := Or.inl rfl

theorem add (only : Only kind tally) (times : Nat) : Only kind (Tally.add kind times tally) := by
  rcases only with rfl | ⟨before, rfl⟩
  · exact Or.inr ⟨times, rfl⟩
  · exact Or.inr ⟨before + times, if_pos rfl⟩

theorem merge (only : Only kind tally) (onlyMore : Only kind more) :
    Only kind (tally.merge more) := by
  rcases onlyMore with rfl | ⟨times, rfl⟩
  · exact only
  · exact only.add times

theorem foldl_merge {α : Type} {tallyOf : α → Tally} {items : List α}
    (each : ∀ item ∈ items, Only kind (tallyOf item)) (only : Only kind tally) :
    Only kind (items.foldl (fun tally item => tally.merge (tallyOf item)) tally) := by
  induction items generalizing tally with
  | nil => exact only
  | cons first rest inductionHypothesis =>
      exact inductionHypothesis (fun item later => each item (List.mem_cons_of_mem first later))
        (only.merge (each first List.mem_cons_self))

theorem count_eq_total (only : Only kind tally) : tally.count kind = tally.total := by
  rcases only with rfl | ⟨times, rfl⟩
  · rfl
  · rw [count_cons, if_pos rfl, total_cons]
    rfl

/-- A tally that lists each kind once, and no other than one kind. -/
theorem of_distinct (distinct : (tally.map (·.1)).Nodup)
    (named : ∀ entry ∈ tally, entry.1 = kind) : Only kind tally := by
  cases tally with
  | nil => exact nil kind
  | cons first rest =>
      have here := named first List.mem_cons_self
      cases rest with
      | nil => exact Or.inr ⟨first.2, congrArg (fun name => [(name, first.2)]) here⟩
      | cons second more =>
          have next := named second (List.mem_cons_of_mem first List.mem_cons_self)
          have again : first.1 = second.1 := here.trans next.symm
          exact absurd (List.mem_cons.mpr (Or.inl again)) (List.nodup_cons.mp distinct).1

end Only
end Tally

namespace Edit

variable {replacements : List Replacement} {kind : Text}

theorem Outcome.Accounts.only {content : Text} {outcome : Outcome}
    (accounts : outcome.Accounts content replacements)
    (sameKind : ∀ replacement ∈ replacements, replacement.kind = kind) :
    outcome.tally.Only kind := by
  have proper := accounts.proper
  have named : ∀ entry ∈ outcome.tally, entry.1 = kind := by
    intro entry member
    rcases accounts.of_lookup (Entries.lookup_of_mem proper.distinct member) with ⟨some, few⟩
    rcases List.countP_pos_iff.mp (Nat.lt_of_lt_of_le some few) with ⟨replacement, asked, same⟩
    exact (of_decide_eq_true same).symm.trans (sameKind replacement asked)
  exact .of_distinct proper.distinct named

/-- An edit that is left out when edits by line are made was left out before or is one of them. -/
theorem mem_or_mem_of_missed_foldl {outcome : Outcome} {replacement : Replacement}
    (missed : replacement ∈ (replacements.foldl stepOnLine outcome).missed) :
    replacement ∈ outcome.missed ∨ replacement ∈ replacements := by
  induction replacements generalizing outcome with
  | nil => exact Or.inl missed
  | cons first rest inductionHypothesis =>
      rcases inductionHypothesis missed with before | later
      · simp only [stepOnLine] at before
        split at before
        · rcases List.mem_append.mp before with earlier | here
          · exact Or.inl earlier
          · exact Or.inr (List.mem_singleton.mp here ▸ List.mem_cons_self)
        · exact Or.inl before
      · exact Or.inr (List.mem_cons_of_mem first later)

/-- Where the ranges are right and lie apart, an edit that is left out knows no range. -/
theorem range?_of_missed (window : Int) (content : Text)
    (fits : ∀ placed ∈ replacements.filterMap Placed.of?, placed.Fits content)
    (apart : (replacements.filterMap Placed.of?).Pairwise Placed.Apart) :
    ∀ replacement ∈ (apply window content replacements).missed, replacement.range? = none := by
  have sortedFits : ∀ edit ∈ descending (replacements.filterMap Placed.of?), edit.Fits content :=
    fun edit member => fits edit ((descending_perm _).mem_iff.mp member)
  have placed := foldl_stepAt window content _ (Outcome.start content) content.length []
    sortedFits (descending_stop_le fits apart) (fun edit member => (sortedFits edit member).within)
    (by rw [List.take_length, List.append_nil]; rfl)
  -- Nothing has been left out when the edits by line begin.
  have none : ((descending (replacements.filterMap Placed.of?)).foldl (stepAt window)
      (Outcome.start content)).missed = [] := by
    rw [placed]
    rfl
  intro replacement missed
  rcases mem_or_mem_of_missed_foldl missed with before | unplaced
  · rw [none] at before
    exact absurd before List.not_mem_nil
  · exact Option.isNone_iff_eq_none.mp (List.mem_filter.mp unplaced).2

end Edit
end Crosslink

import Mathlib.Data.List.Basic
import Mathlib.Data.List.Nodup

namespace Crosslink

/-!
Lists of entries that are looked up by key, the first entry of a key standing for it.  Setting
the value of a key that is there changes nothing but the value: the keys stay as they are, and
so does every other value.
-/

namespace Entries

variable {α β : Type} [DecidableEq α]

def set (key : α) (value : β) : List (α × β) → List (α × β)
  | [] => [(key, value)]
  | entry :: rest => if entry.1 = key then (key, value) :: rest else entry :: set key value rest

theorem lookup_cons [BEq α] [LawfulBEq α] (entry : α × β) (rest : List (α × β)) (key : α) :
    (entry :: rest).lookup key = if key = entry.1 then some entry.2 else rest.lookup key := by
  rw [List.lookup_cons]
  by_cases same : key = entry.1
  · simp only [same, beq_self_eq_true, if_true]
  · simp only [if_neg same, beq_eq_false_iff_ne.mpr same]

omit [DecidableEq α] in
/-- A key has a value exactly if it stands in the list. -/
theorem isSome_lookup_iff [BEq α] [LawfulBEq α] {entries : List (α × β)} {key : α} :
    (entries.lookup key).isSome = true ↔ key ∈ entries.map (·.1) := by
  rw [List.lookup_isSome_iff, List.mem_map]
  constructor
  · rintro ⟨entry, member, same⟩
    exact ⟨entry, member, (beq_iff_eq.mp same).symm⟩
  · rintro ⟨entry, member, same⟩
    exact ⟨entry, member, beq_iff_eq.mpr same.symm⟩

omit [DecidableEq α] in
theorem mem_keys_of_lookup [BEq α] [LawfulBEq α] {entries : List (α × β)} {key : α} {value : β}
    (found : entries.lookup key = some value) : key ∈ entries.map (·.1) :=
  isSome_lookup_iff.mp (found ▸ rfl)

omit [DecidableEq α] in
/-- Where each key stands once, every entry is found by its key. -/
theorem lookup_of_mem [BEq α] [LawfulBEq α] {entries : List (α × β)} {entry : α × β}
    (distinct : (entries.map (·.1)).Nodup) (member : entry ∈ entries) :
    entries.lookup entry.1 = some entry.2 := by
  classical
  induction entries with
  | nil => exact absurd member List.not_mem_nil
  | cons first rest inductionHypothesis =>
      rw [lookup_cons]
      rcases List.nodup_cons.mp distinct with ⟨absent, restDistinct⟩
      rcases List.mem_cons.mp member with here | later
      · rw [here, if_pos rfl]
      · rw [if_neg, inductionHypothesis restDistinct later]
        intro same
        exact absent (List.mem_map.mpr ⟨entry, later, same⟩)

theorem lookup_set [BEq α] [LawfulBEq α] (key : α) (value : β) (entries : List (α × β)) (other : α) :
    (set key value entries).lookup other =
      if other = key then some value else entries.lookup other := by
  induction entries with
  | nil => rw [set, lookup_cons]
  | cons entry rest inductionHypothesis =>
      rw [set, lookup_cons]
      split
      · next found =>
          rw [lookup_cons, found]
          by_cases same : other = key
          · rw [if_pos same, if_pos same]
          · rw [if_neg same, if_neg same, if_neg same]
      · next different =>
          rw [lookup_cons, inductionHypothesis]
          by_cases first : other = entry.1
          · rw [if_pos first, if_pos first, if_neg]
            exact fun equal => different (first.symm.trans equal)
          · rw [if_neg first, if_neg first]

theorem keys_set {entries : List (α × β)} {key : α} (held : key ∈ entries.map (·.1)) (value : β) :
    (set key value entries).map (·.1) = entries.map (·.1) := by
  induction entries with
  | nil => exact absurd held List.not_mem_nil
  | cons entry rest inductionHypothesis =>
      rw [set]
      split
      · next found => rw [List.map_cons, List.map_cons, found]
      · next different =>
          have later : key ∈ rest.map (·.1) :=
            (List.mem_cons.mp held).resolve_left fun equal => different equal.symm
          rw [List.map_cons, List.map_cons, inductionHypothesis later]

end Entries

/-!
## Lists from which repeats are taken out

Of equal items the first one stays, so that the items are left in the order in which each of them
first stands in the list; and where nothing repeats, nothing is taken out.
-/

namespace Firsts

variable {α : Type} [BEq α] [LawfulBEq α] {items : List α}

/-! ## Where items first stand -/

/-- What first stands in front of an item that passes a test when the others are left out stands in
front of it when they are not. -/
theorem idxOf_lt_of_filter {test : α → Bool} {first second : α} (passes : test second = true)
    (before : (items.filter test).idxOf first < (items.filter test).idxOf second) :
    items.idxOf first < items.idxOf second := by
  induction items with
  | nil => exact absurd before (Nat.lt_irrefl _)
  | cons item rest inductionHypothesis =>
      by_cases here : item = first
      · rw [List.idxOf_cons_eq rest here]
        by_cases same : item = second
        · rw [← here, same] at before
          exact absurd before (Nat.lt_irrefl _)
        · rw [List.idxOf_cons_ne rest same]
          exact Nat.succ_pos _
      · have apart : item ≠ second := by
          rintro rfl
          rw [List.filter_cons_of_pos passes, List.idxOf_cons_self] at before
          exact absurd before (Nat.not_lt_zero _)
        rw [List.idxOf_cons_ne rest here, List.idxOf_cons_ne rest apart]
        refine Nat.succ_lt_succ (inductionHypothesis ?_)
        cases kept : test item with
        | true =>
            rw [List.filter_cons_of_pos kept, List.idxOf_cons_ne _ here,
              List.idxOf_cons_ne _ apart] at before
            exact Nat.lt_of_succ_lt_succ before
        | false =>
            rw [List.filter_cons_of_neg (Bool.eq_false_iff.mp kept)] at before
            exact before

/-- What stays of a list stays in the order in which it first stands there. -/
theorem pairwise_idxOf_eraseDups (items : List α) :
    items.eraseDups.Pairwise fun first second => items.idxOf first < items.idxOf second := by
  match items with
  | [] => exact List.Pairwise.nil
  | item :: rest =>
      have later := pairwise_idxOf_eraseDups (rest.filter fun other => !other == item)
      have unlike : ∀ other ∈ (rest.filter fun other => !other == item).eraseDups,
          (!other == item) = true := fun other member =>
        (List.mem_filter.mp (List.mem_eraseDups.mp member)).2
      have different : ∀ other, (!other == item) = true → item ≠ other := by
        rintro other differs rfl
        rw [beq_self_eq_true] at differs
        cases differs
      rw [List.eraseDups_cons, List.pairwise_cons]
      constructor
      · intro other member
        rw [List.idxOf_cons_self, List.idxOf_cons_ne rest (different other (unlike other member))]
        exact Nat.succ_pos _
      · refine later.imp_of_mem fun {first second} member also before => ?_
        rw [List.idxOf_cons_ne rest (different first (unlike first member)),
          List.idxOf_cons_ne rest (different second (unlike second also))]
        exact Nat.succ_lt_succ (idxOf_lt_of_filter (unlike second also) before)
termination_by items.length
decreasing_by exact Nat.lt_succ_of_le (List.length_filter_le _ _)

/-! ## What stays -/

theorem nodup_eraseDups (items : List α) : items.eraseDups.Nodup :=
  (pairwise_idxOf_eraseDups items).imp fun before same =>
    absurd (same ▸ before) (Nat.lt_irrefl _)

omit [LawfulBEq α] in
theorem eraseDups_sublist (items : List α) : items.eraseDups.Sublist items := by
  match items with
  | [] => exact List.Sublist.refl []
  | item :: rest =>
      rw [List.eraseDups_cons]
      exact ((eraseDups_sublist _).trans List.filter_sublist).cons_cons item
termination_by items.length
decreasing_by exact Nat.lt_succ_of_le (List.length_filter_le _ _)

/-- Where nothing repeats, nothing is taken out. -/
theorem eraseDups_of_nodup (distinct : items.Nodup) : items.eraseDups = items := by
  induction items with
  | nil => rfl
  | cons item rest inductionHypothesis =>
      rcases List.nodup_cons.mp distinct with ⟨absent, restDistinct⟩
      have all : (rest.filter fun other => !other == item) = rest := by
        refine List.filter_eq_self.mpr fun other member => ?_
        rw [Bool.not_eq_true', beq_eq_false_iff_ne]
        rintro rfl
        exact absent member
      rw [List.eraseDups_cons, all, inductionHypothesis restDistinct]

end Firsts

end Crosslink

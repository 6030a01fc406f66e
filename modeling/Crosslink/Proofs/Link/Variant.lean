import Crosslink.Link.Variant
import Crosslink.Proofs.Href.Parts

namespace Crosslink
namespace Variant

/-!
What variants look like and what finding one means.  A variant begins with a dot, as the link
does, and is made of the characters of the link and of dots and slashes.
-/

@[simp] theorem startsWith_dotted (href : Text) : (dotted href).startsWith ['.'] = true := by
  unfold dotted
  by_cases dot : href.startsWith ['.'] = true
  · rw [if_pos dot]
    exact dot
  · rw [if_neg dot]
    rfl

@[simp] theorem startsWith_withoutAnchor_dotted (href : Text) :
    (Href.withoutAnchor (dotted href)).startsWith ['.'] = true := by
  rcases Text.startsWith_iff.mp (startsWith_dotted href) with ⟨rest, begins⟩
  rw [← begins]
  rfl

/-- A dot in front does not touch the query and the anchor. -/
theorem sameMarks_dotted (href : Text) : Href.SameMarks (dotted href) href := by
  unfold dotted
  split
  · exact ⟨rfl, rfl⟩
  · have unmarked : Href.Unmarked ['.', '/'] := by decide
    rw [Href.SameMarks, show '.' :: '/' :: href = ['.', '/'] ++ href from rfl,
      unmarked.split_append href]
    exact ⟨rfl, rfl⟩

@[simp] theorem startsWith_path_dotted (href : Text) :
    (Href.split (dotted href)).path.startsWith ['.'] = true := by
  rcases Text.startsWith_iff.mp (startsWith_withoutAnchor_dotted href) with ⟨rest, begins⟩
  rw [Href.split, ← begins]
  rfl

theorem mem_dotted {href : Text} {c : Char} (held : c ∈ dotted href) :
    c = '.' ∨ c = '/' ∨ c ∈ href := by
  unfold dotted at held
  by_cases dot : href.startsWith ['.'] = true
  · rw [if_pos dot] at held
    exact Or.inr (Or.inr held)
  · rw [if_neg dot] at held
    rcases List.mem_cons.mp held with isDot | behind
    · exact Or.inl isDot
    · exact Or.inr (List.mem_cons.mp behind)

/-- A variant of a link is one of the link's own spellings with leading segments left out. -/
theorem mem_candidates {candidate href : Text} (member : candidate ∈ candidates href) :
    href.startsWith ['.'] = true ∧
      ∃ count, candidate = dropping (href.splitOn '/') count := by
  unfold candidates at member
  by_cases climbing : href.startsWith ['.', '.', '/'] = true
  · rw [if_pos climbing] at member
    rcases List.mem_map.mp member with ⟨count, _, same⟩
    refine ⟨?_, count, same.symm⟩
    exact Text.startsWith_iff.mpr
      (List.IsPrefix.trans ⟨['.', '/'], rfl⟩ (Text.startsWith_iff.mp climbing))
  · rw [if_neg climbing] at member
    exact absurd member List.not_mem_nil

theorem mem_dropping {href : Text} {count : Nat} {c : Char}
    (held : c ∈ dropping (href.splitOn '/') count) : c = '.' ∨ c = '/' ∨ c ∈ href := by
  rcases mem_dotted held with dot | slash | joined
  · exact Or.inl dot
  · exact Or.inr (Or.inl slash)
  · rcases Text.mem_join joined with slash | ⟨segment, member, inSegment⟩
    · exact Or.inr (Or.inl (List.mem_singleton.mp slash))
    · exact Or.inr (Or.inr (Text.mem_of_mem_splitOn (List.mem_of_mem_drop member) inSegment))

theorem of_findM?_eq_some {α : Type} {passes : α → Except Failure Bool} {items : List α} {item : α}
    (found : items.findM? passes = .ok (some item)) : item ∈ items ∧ passes item = .ok true := by
  induction items with
  | nil => cases found
  | cons first rest inductionHypothesis =>
      rw [List.findM?] at found
      cases asked : passes first with
      | error failure =>
          rw [asked] at found
          cases found
      | ok passed =>
          rw [asked] at found
          cases passed with
          | true =>
              cases found
              exact ⟨List.mem_cons_self, asked⟩
          | false =>
              rcases inductionHypothesis found with ⟨member, passed⟩
              exact ⟨List.mem_cons_of_mem first member, passed⟩

/-- A search through a list of items that can all be tested comes to its end. -/
theorem exists_findM?_eq_ok {α : Type} {passes : α → Except Failure Bool} {items : List α}
    (tested : ∀ item ∈ items, ∃ passed, passes item = .ok passed) :
    ∃ found?, items.findM? passes = .ok found? := by
  induction items with
  | nil => exact ⟨none, rfl⟩
  | cons first rest inductionHypothesis =>
      rcases tested first List.mem_cons_self with ⟨passed, asked⟩
      rw [List.findM?, asked]
      cases passed with
      | true => exact ⟨some first, rfl⟩
      | false => exact inductionHypothesis fun item later => tested item (.tail first later)

/-- A search through a list that stops has come to an item that cannot be tested. -/
theorem of_findM?_eq_error {α : Type} {passes : α → Except Failure Bool} {items : List α}
    {failure : Failure} (stopped : items.findM? passes = .error failure) :
    ∃ item ∈ items, passes item = .error failure := by
  induction items with
  | nil => cases stopped
  | cons first rest inductionHypothesis =>
      rw [List.findM?] at stopped
      cases asked : passes first with
      | error other =>
          rw [asked] at stopped
          cases stopped
          exact ⟨first, List.mem_cons_self, asked⟩
      | ok passed =>
          rw [asked] at stopped
          cases passed with
          | true => cases stopped
          | false =>
              rcases inductionHypothesis stopped with ⟨item, later, untested⟩
              exact ⟨item, .tail first later, untested⟩

variable {present : Text → Bool} {cwd file href candidate : Text} {rules : Rules}

/-- Where presence can be asked for without failing, the search ends with the first variant whose
target is there. -/
theorem find?_eq_ok (present : Text → Bool) (cwd : Text) (rules : Rules) (file href : Text) :
    find? (fun place => .ok (present place)) cwd rules file href =
      .ok ((candidates href).find? fun candidate =>
        present (Target.path cwd rules.folders rules.root file candidate)) :=
  List.findM?_pure (m := Except Failure) _ _

/-- A variant that is found has a path, whatever queries and anchors it holds. -/
theorem path_ne_nil_of_find? {present : Text → Except Failure Bool}
    (found : find? present cwd rules file href = .ok (some candidate)) :
    (Href.split candidate).path ≠ [] := by
  rcases mem_candidates (of_findM?_eq_some found).1 with ⟨_, count, spelled⟩
  have begins := startsWith_path_dotted (Text.join ['/'] ((href.splitOn '/').drop count))
  intro empty
  rw [spelled, dropping] at empty
  rw [empty] at begins
  cases begins

end Variant
end Crosslink

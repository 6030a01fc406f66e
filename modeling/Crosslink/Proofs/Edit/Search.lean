import Crosslink.Edit.Apply
import Crosslink.Proofs.Text.Occurrence
import Mathlib.Data.Nat.Find

namespace Crosslink
namespace Edit

/-!
The place at which an edit by position is made.  That is its own range as long as the range spells
the old href.  Where it does not, the search takes the first hit from the beginning of the window
on and looks at that one only; a later hit would lie further off, so nothing within the window is
overlooked.  The place does not depend on the new href.
-/

/-- The positions bound a range of the text that holds a character. -/
structure IsRange (text : Text) (start stop : Int) : Prop where
  /-- The range does not begin before the text. -/
  nonneg : 0 ≤ start
  /-- The range holds a character. -/
  nonempty : start < stop
  /-- The range does not end behind the text. -/
  within : stop ≤ text.length

instance (text : Text) (start stop : Int) : Decidable (IsRange text start stop) :=
  decidable_of_iff (0 ≤ start ∧ start < stop ∧ stop ≤ text.length)
    ⟨fun ⟨nonneg, nonempty, within⟩ => ⟨nonneg, nonempty, within⟩,
      fun range => ⟨range.nonneg, range.nonempty, range.within⟩⟩

/-- The old href stands at a place within the window around a range. -/
structure InWindow (window : Int) (text old : Text) (start stop : Int) (place : Nat) : Prop where
  /-- The old href stands there. -/
  occurs : Text.OccursAt old text place
  /-- The place is not before the window. -/
  notBefore : max 0 (start - window) ≤ place
  /-- The place is not behind the window. -/
  notBehind : (place : Int) ≤ stop + window

/-- The place at which an edit by position is made, if it is made. -/
def site? (window : Int) (text old : Text) (start stop : Int) : Option Nat :=
  if IsRange text start stop then
    if text.slice start.toNat stop.toNat = old then some start.toNat
    else
      (Text.findFrom? old text (max 0 (start - window)).toNat).filter fun found =>
        found < start || found ≤ stop + window
  else none

variable {window : Int} {text old : Text} {start stop : Int} {place : Nat}

theorem length_slice (range : IsRange text start stop) :
    (text.slice start.toNat stop.toNat).length = (stop - start).toNat := by
  have nonneg := range.nonneg
  have nonempty := range.nonempty
  have within := range.within
  rw [Text.slice, List.length_drop, List.length_take_of_le (by omega)]
  omega

/-- An edit is made at its place, or it is not made. -/
theorem applyAt?_eq_map_site? (window : Int) (text old new : Text) (start stop : Int) :
    applyAt? window text old new start stop =
      (site? window text old start stop).map fun place => splice text place old.length new := by
  have refused : (decide (start < 0) || decide ((text.length : Int) < stop)
      || decide (stop ≤ start)) = true ↔ ¬ IsRange text start stop := by
    simp only [Bool.or_eq_true, decide_eq_true_eq]
    constructor
    · rintro ((before | behind) | empty) range
      · exact Int.not_lt.mpr range.nonneg before
      · exact Int.not_lt.mpr range.within behind
      · exact Int.not_lt.mpr empty range.nonempty
    · intro outside
      by_contra inside
      simp only [not_or, Int.not_lt, Int.not_le] at inside
      exact outside ⟨inside.1.1, inside.2, inside.1.2⟩
  by_cases range : IsRange text start stop
  · rw [applyAt?, site?, if_neg (refused.not.mpr (not_not.mpr range)), if_pos range]
    by_cases spells : text.slice start.toNat stop.toNat = old
    · rw [if_pos spells, if_pos spells, Option.map_some, ← spells, length_slice range]
    · rw [if_neg spells, if_neg spells]
      cases Text.findFrom? old text (max 0 (start - window)).toNat with
      | none => rfl
      | some found =>
          rw [Option.filter_some]
          cases near : decide ((found : Int) < start) || decide ((found : Int) ≤ stop + window) with
          | true => simp only [near, if_true, Option.map_some]
          | false => simp only [near, Bool.false_eq_true, if_false, Option.map_none]
  · rw [applyAt?, site?, if_pos (refused.mpr range), if_neg range, Option.map_none]

theorem site?_of_not_isRange (outside : ¬ IsRange text start stop) :
    site? window text old start stop = none :=
  if_neg outside

theorem site?_of_spells (range : IsRange text start stop)
    (spells : text.slice start.toNat stop.toNat = old) :
    site? window text old start stop = some start.toNat :=
  (if_pos range).trans (if_pos spells)

theorem site?_eq_some_iff (range : IsRange text start stop)
    (lost : text.slice start.toNat stop.toNat ≠ old) :
    site? window text old start stop = some place ↔
      IsLeast {place | InWindow window text old start stop place} place := by
  have nonempty := range.nonempty
  rw [site?, if_pos range, if_neg lost, Option.filter_eq_some_iff, Bool.or_eq_true,
    decide_eq_true_eq, decide_eq_true_eq, Text.findFrom?_eq_some_iff]
  constructor
  · rintro ⟨⟨⟨behind, occurs⟩, first⟩, near⟩
    -- A hit before the range lies in the window as well: it has been searched for from there.
    refine ⟨⟨occurs, by omega, by omega⟩, fun other inWindow => ?_⟩
    have notBefore := inWindow.notBefore
    exact first ⟨by omega, inWindow.occurs⟩
  · rintro ⟨⟨occurs, notBefore, notBehind⟩, first⟩
    refine ⟨⟨⟨by omega, occurs⟩, ?_⟩, Or.inr notBehind⟩
    rintro other ⟨behind, otherOccurs⟩
    by_cases further : (other : Int) ≤ stop + window
    · exact first ⟨otherOccurs, by omega, further⟩
    · omega

/-- Such an edit is made if the old href stands in the window at all. -/
theorem isSome_site?_iff (range : IsRange text start stop)
    (lost : text.slice start.toNat stop.toNat ≠ old) :
    (site? window text old start stop).isSome = true ↔
      ∃ place, InWindow window text old start stop place := by
  rw [Option.isSome_iff_exists]
  constructor
  · rintro ⟨place, made⟩
    exact ⟨place, ((site?_eq_some_iff range lost).mp made).1⟩
  · intro somewhere
    classical
    exact ⟨Nat.find somewhere, (site?_eq_some_iff range lost).mpr
      ⟨Nat.find_spec somewhere, fun _ inWindow => Nat.find_min' somewhere inWindow⟩⟩

/-- Wherever an edit is made, the old href stands there, no further from the range than the window
is wide. -/
theorem bounds_of_site? (made : site? window text old start stop = some place) :
    Text.OccursAt old text place ∧ start - window.toNat ≤ place ∧
      (place : Int) ≤ stop + window.toNat := by
  have range : IsRange text start stop := by
    by_contra outside
    rw [site?_of_not_isRange outside] at made
    cases made
  have nonneg := range.nonneg
  have nonempty := range.nonempty
  have within := range.within
  by_cases spells : text.slice start.toNat stop.toNat = old
  · rw [site?_of_spells range spells] at made
    cases made
    refine ⟨⟨by omega, ?_⟩, by omega, by omega⟩
    rw [← spells, Text.slice, List.drop_take]
    exact List.take_prefix _ _
  · have inWindow := ((site?_eq_some_iff range spells).mp made).1
    have notBefore := inWindow.notBefore
    have notBehind := inWindow.notBehind
    exact ⟨inWindow.occurs, by omega, by omega⟩

/-- An edit by position is made in its own range if that spells the old href.  If not, it is made
if and only if the old href stands within the window, and then at the first such place.  It is not
made for any other range, and text before the window is never touched. -/
theorem applyAt?_searched (window : Int) (text old new : Text) (start stop : Int) :
    (IsRange text start stop →
      (text.slice start.toNat stop.toNat = old →
        applyAt? window text old new start stop =
          some (text.take start.toNat ++ new ++ text.drop stop.toNat)) ∧
      (text.slice start.toNat stop.toNat ≠ old →
        ((applyAt? window text old new start stop).isSome = true ↔
          ∃ place, InWindow window text old start stop place) ∧
        ∀ place, IsLeast {place | InWindow window text old start stop place} place →
          applyAt? window text old new start stop =
            some (text.take place ++ new ++ text.drop (place + old.length)))) ∧
    (¬ IsRange text start stop → applyAt? window text old new start stop = none) ∧
    (0 ≤ window → ∀ changed, applyAt? window text old new start stop = some changed →
      text.take (max 0 (start - window)).toNat <+: changed) := by
  rw [applyAt?_eq_map_site?]
  refine ⟨fun range => ⟨fun spells => ?_, fun lost => ⟨?_, fun place least => ?_⟩⟩,
    fun outside => ?_, fun wide changed made => ?_⟩
  · have nonneg := range.nonneg
    have nonempty := range.nonempty
    have behind : start.toNat + old.length = stop.toNat := by
      rw [← spells, length_slice range]
      omega
    rw [site?_of_spells range spells, Option.map_some, splice, behind]
  · rw [Option.isSome_map]
    exact isSome_site?_iff range lost
  · rw [(site?_eq_some_iff range lost).mpr least, Option.map_some, splice]
  · rw [site?_of_not_isRange outside, Option.map_none]
  · rcases Option.map_eq_some_iff.mp made with ⟨place, found, rfl⟩
    have notBefore := (bounds_of_site? found).2.1
    rw [splice, List.append_assoc]
    exact (List.take_prefix_take_left (by omega)).trans (List.prefix_append _ _)

/-- An href that has moved to the left is found there, and not at its second place. -/
theorem applyAt?_searched_moved :
    (IsRange "[x](a.md) a.md" 6 10 ∧ Text.slice "[x](a.md) a.md" 6 10 ≠ "a.md" ∧
        IsLeast {place | InWindow 64 "[x](a.md) a.md" "a.md" 6 10 place} 4) ∧
      applyAt? 64 "[x](a.md) a.md" "a.md" "b.md" 6 10 = some "[x](b.md) a.md" := by
  have range : IsRange "[x](a.md) a.md" 6 10 := by decide
  have lost : Text.slice "[x](a.md) a.md" 6 10 ≠ "a.md" := by decide
  have least : IsLeast {place | InWindow 64 "[x](a.md) a.md" "a.md" 6 10 place} 4 :=
    (site?_eq_some_iff range lost).mp (by decide +kernel)
  exact ⟨⟨range, lost, least⟩,
    (((applyAt?_searched 64 "[x](a.md) a.md" "a.md" "b.md" 6 10).1 range).2 lost).2 4 least⟩

end Edit
end Crosslink

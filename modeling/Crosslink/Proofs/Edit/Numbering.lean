import Crosslink.Proofs.Edit.Account
import Crosslink.Proofs.Edit.OneLine
import Crosslink.Proofs.Edit.Overlap

namespace Crosslink

/-!
Line numbers through a run of edits.  An edit whose old and new href hold no line feed is made
within one line, wherever it is made: even between a carriage return and the line feed behind it,
and even if all line breaks are written anew.  So the numbers by which later edits and reports
name lines go on to name the same lines.  Nothing is asked of the ranges, which may be stale, nor
of carriage returns in the hrefs.
-/

namespace Edit

section

variable {window : Int} {text changed shown old new : Text} {start stop : Int} {number : Nat}

theorem sameLinesBut_applyAt? (oldWhole : '\n' ∉ old) (newWhole : '\n' ∉ new)
    (made : applyAt? window text old new start stop = some changed) :
    ∃ number, text.SameLinesBut [number] changed := by
  rw [applyAt?_eq_map_site?, Option.map_eq_some_iff] at made
  rcases made with ⟨place, found, rfl⟩
  have whole := (bounds_of_site? found).1.take_append_drop
  rcases Text.exists_splitLines_exchange (text.take place) oldWhole newWhole
    (text.drop (place + old.length)) with ⟨line, cut⟩
  rw [whole, ← List.append_assoc] at cut
  exact ⟨_, .of_set cut⟩

theorem count_join_take (held : text.splitLines[number]? = some shown) :
    (Text.join text.lineBreak (text.splitLines.take number ++ [[]])).count '\n' = number := by
  have listed : number < text.splitLines.length := (List.getElem?_eq_some_iff.mp held).1
  have lines := congrArg List.length (Text.splitLines_join
    ((Text.separable_splitLines text).before listed)
    (List.append_ne_nil_of_right_ne_nil _ (List.cons_ne_nil _ _)))
  rw [Text.length_splitLines, List.length_append, List.length_take_of_le (Nat.le_of_lt listed)]
    at lines
  exact Nat.succ.inj lines

/-- An edit of a line that is there changes that line and no other, whatever the new href ends
in. -/
theorem exists_splitLines_applyOnLine (held : text.splitLines[number]? = some shown) (old : Text)
    (newWhole : '\n' ∉ new) :
    ∃ revised, (applyOnLine text (number + 1) old new).splitLines =
      text.splitLines.set number revised := by
  by_cases holds : old <:+: shown
  · have shownWhole : '\n' ∉ shown := Text.not_mem_of_mem_splitLines (List.mem_of_getElem? held)
    have revisedWhole : '\n' ∉ replaceFirst old new shown := fun feed =>
      ((firstReplaced_replaceFirst old new shown).mem feed).elim shownWhole newWhole
    rcases Text.exists_join_set text.lineBreak held with ⟨back, joined⟩
    rcases Text.exists_splitLines_exchange
      (Text.join text.lineBreak (text.splitLines.take number ++ [[]])) shownWhole revisedWhole back
      with ⟨revised, cut⟩
    rw [← joined, ← joined, set_of_getElem? held, count_join_take held, Text.splitLines_join
      (Text.separable_splitLines text) (Text.splitLines_ne_nil text)] at cut
    exact ⟨revised, by rw [applyOnLine_of_holds held holds, cut]⟩
  · exact ⟨shown, by rw [applyOnLine_of_absent held holds, set_of_getElem? held]⟩

theorem sameLinesBut_applyOnLine (text : Text) (line : Int) (old : Text) (newWhole : '\n' ∉ new) :
    text.SameLinesBut [(line - 1).toNat] (applyOnLine text line old new) := by
  by_cases listed : ∃ (number : Nat) (shown : Text), line = number + 1 ∧
      text.splitLines[number]? = some shown
  · rcases listed with ⟨number, shown, rfl, held⟩
    rcases exists_splitLines_applyOnLine held old newWhole with ⟨revised, cut⟩
    rw [Int.add_sub_cancel, Int.toNat_natCast]
    exact .of_set cut
  · rw [applyOnLine_of_no_line fun number numbered => ?_]
    · exact .refl _ text
    · rw [Option.eq_none_iff_forall_ne_some]
      exact fun shown held => listed ⟨number, shown, numbered, held⟩

end

/-! ## Lists of edits -/

/-- An outcome whose text has the lines of some text under all numbers but as many as edits were
made. -/
def Outcome.Numbered (content : Text) (outcome : Outcome) : Prop :=
  ∃ numbers : List Nat, numbers.length = outcome.applied ∧
    content.SameLinesBut numbers outcome.content

namespace Outcome.Numbered

variable {content : Text} {outcome : Outcome}

theorem start (content : Text) : (Outcome.start content).Numbered content :=
  ⟨[], rfl, .refl [] content⟩

theorem count (numbered : outcome.Numbered content) {number : Nat} {changed : Text}
    (same : outcome.content.SameLinesBut [number] changed) (kind : Text) :
    (outcome.count changed kind).Numbered content := by
  rcases numbered with ⟨numbers, asMany, before⟩
  exact ⟨numbers ++ [number], by rw [List.length_append, asMany]; rfl, before.trans same⟩

theorem miss (numbered : outcome.Numbered content) (replacement : Replacement) :
    (outcome.miss replacement).Numbered content :=
  numbered

theorem stepAt (numbered : outcome.Numbered content) (window : Int) {placed : Placed}
    (oldWhole : '\n' ∉ placed.replacement.oldHref) (newWhole : '\n' ∉ placed.replacement.newHref) :
    (Edit.stepAt window outcome placed).Numbered content := by
  simp only [Edit.stepAt]
  split
  · next changed made =>
      rcases sameLinesBut_applyAt? oldWhole newWhole made with ⟨number, same⟩
      exact numbered.count same _
  · exact numbered.miss _

theorem stepOnLine (numbered : outcome.Numbered content) {replacement : Replacement}
    (newWhole : '\n' ∉ replacement.newHref) :
    (Edit.stepOnLine outcome replacement).Numbered content := by
  simp only [Edit.stepOnLine]
  split
  · exact numbered.miss _
  · exact numbered.count (sameLinesBut_applyOnLine _ _ _ newWhole) _

end Outcome.Numbered

/-- Edits that neither take a line feed away nor bring one keep the number of lines, and all lines
under their numbers but at most one for each edit that is made. -/
theorem apply_numbered (window : Int) (content : Text) (replacements : List Replacement)
    (whole : ∀ replacement ∈ replacements,
      '\n' ∉ replacement.oldHref ∧ '\n' ∉ replacement.newHref) :
    (apply window content replacements).content.count '\n' = content.count '\n' ∧
      ∃ numbers : List Nat, numbers.length = (apply window content replacements).applied ∧
        content.SameLinesBut numbers (apply window content replacements).content := by
  have placed := List.foldlRecOn (descending (replacements.filterMap Placed.of?)) (stepAt window)
    (Outcome.Numbered.start content) fun outcome numbered placed member =>
      have listed := mem_of_mem_descending member
      numbered.stepAt window (whole _ listed).1 (whole _ listed).2
  have all := List.foldlRecOn (replacements.filter fun replacement => replacement.range?.isNone)
    stepOnLine placed fun outcome numbered replacement member =>
      numbered.stepOnLine (whole _ (List.mem_of_mem_filter member)).2
  rcases all with ⟨numbers, asMany, same⟩
  exact ⟨same.count, numbers, asMany, same⟩

/-- An edit that ends up between a carriage return and a line feed, and one by line behind it. -/
theorem apply_numbered_within_break :
    let content : Text := "a\r\nb\nc"
    let replacements : List Replacement :=
      [{ line := 2, oldHref := "b", newHref := "d\r", start? := none, stop? := none
         kind? := none },
        { line := 1, oldHref := "", newHref := "e", start? := some 2, stop? := some 3
          kind? := none }]
    (∀ replacement ∈ replacements,
        '\n' ∉ replacement.oldHref ∧ '\n' ∉ replacement.newHref) ∧
      ((apply 0 content replacements).content = "a\re\nd\r\nc" ∧
        (apply 0 content replacements).applied = 2) ∧
      (apply 0 content replacements).content.count '\n' = content.count '\n' ∧
      ∃ numbers : List Nat, numbers.length = (apply 0 content replacements).applied ∧
        content.SameLinesBut numbers (apply 0 content replacements).content := by
  refine ⟨by decide, by decide +kernel, ?_⟩
  exact apply_numbered 0 _ _ (by decide)

end Edit
end Crosslink

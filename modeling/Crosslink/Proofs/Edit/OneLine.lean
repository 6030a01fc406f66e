import Crosslink.Edit.Apply
import Crosslink.Proofs.Text.Lines

namespace Crosslink
namespace Edit

/-!
Edits by line.  An edit changes the first occurrence of an href on one line and leaves every other
line as it is.  The lines are joined with one kind of break, so a text with both kinds gets wide
breaks throughout; a text with one kind of break keeps every other character.
-/

/-- A line, and the line with the first occurrence of an href in it, if there is one, replaced. -/
inductive FirstReplaced (old new : Text) : Text → Text → Prop
  | replaced (front back : Text)
      (first : ∀ place, Text.OccursAt old (front ++ (old ++ back)) place → front.length ≤ place) :
      FirstReplaced old new (front ++ (old ++ back)) (front ++ (new ++ back))
  | absent (line : Text) (absent : ¬ old <:+: line) : FirstReplaced old new line line

theorem firstReplaced_replaceFirst (old new line : Text) :
    FirstReplaced old new line (replaceFirst old new line) := by
  unfold replaceFirst
  split
  · next place found =>
      have least := Text.find?_eq_some_iff.mp found
      have occurs : Text.OccursAt old line place := least.1
      have whole := occurs.take_append_drop
      have replaced := @FirstReplaced.replaced old new (line.take place)
        (line.drop (place + old.length)) (by
          rw [whole, List.length_take_of_le occurs.1]
          exact fun other otherOccurs => least.2 otherOccurs)
      rw [whole, ← List.append_assoc] at replaced
      exact replaced
  · next missed => exact .absent line (Text.find?_eq_none_iff.mp missed)

namespace FirstReplaced

variable {old new line revised : Text}

theorem mem (replaced : FirstReplaced old new line revised) {c : Char} (held : c ∈ revised) :
    c ∈ line ∨ c ∈ new := by
  cases replaced with
  | absent => exact Or.inl held
  | replaced front back =>
      simp only [List.mem_append] at held ⊢
      tauto

theorem getLast? (replaced : FirstReplaced old new line revised) {c : Char} (nonempty : new ≠ [])
    (lacks : c ∉ new) (ends : revised.getLast? = some c) : line.getLast? = some c := by
  cases replaced with
  | absent => exact ends
  | replaced front back =>
      rw [List.getLast?_append, List.getLast?_append] at ends ⊢
      cases last : back.getLast? with
      | some d =>
          rw [last] at ends
          exact ends
      | none =>
          rw [last, List.getLast?_eq_some_getLast nonempty] at ends
          exact absurd (Option.some.inj ends ▸ List.getLast_mem nonempty) lacks

end FirstReplaced

variable {text shown : Text} {number : Nat}

theorem applyOnLine_of_line (held : text.splitLines[number]? = some shown) (old new : Text) :
    applyOnLine text (number + 1) old new =
      if (Text.find? old shown).isSome then
        Text.join text.lineBreak (text.splitLines.set number (replaceFirst old new shown))
      else text := by
  have numbered : ¬ (number : Int) + 1 < 1 := by omega
  have index : ((number : Int) + 1 - 1).toNat = number := by omega
  simp only [applyOnLine, if_neg numbered, index, held]

theorem applyOnLine_of_holds (held : text.splitLines[number]? = some shown) {old : Text}
    (holds : old <:+: shown) (new : Text) :
    applyOnLine text (number + 1) old new =
      Text.join text.lineBreak (text.splitLines.set number (replaceFirst old new shown)) := by
  rw [applyOnLine_of_line held, if_pos]
  rw [Option.isSome_iff_ne_none, ne_eq, Text.find?_eq_none_iff, not_not]
  exact holds

theorem applyOnLine_of_absent (held : text.splitLines[number]? = some shown) {old : Text}
    (absent : ¬ old <:+: shown) (new : Text) : applyOnLine text (number + 1) old new = text := by
  rw [applyOnLine_of_line held, Text.find?_eq_none_iff.mpr absent]
  rfl

theorem applyOnLine_of_no_line {line : Int}
    (missing : ∀ number : Nat, line = number + 1 → text.splitLines[number]? = none)
    (old new : Text) : applyOnLine text line old new = text := by
  unfold applyOnLine
  dsimp only
  split
  · rfl
  · next numbered =>
      rw [missing (line - 1).toNat (by omega)]

theorem replaceFirst_of_absent {old : Text} (absent : ¬ old <:+: shown) (new : Text) :
    replaceFirst old new shown = shown := by
  rw [replaceFirst, Text.find?_eq_none_iff.mpr absent]

theorem set_of_getElem? {lines : List Text} (held : lines[number]? = some shown) :
    lines.set number shown = lines := by
  rcases List.getElem?_eq_some_iff.mp held with ⟨listed, rfl⟩
  exact List.set_getElem_self listed

/-- Where all breaks are of one kind, an edit of a line is made in the text before and behind which
nothing changes. -/
theorem exists_applyOnLine_of_alike (alike : text.BreaksAlike)
    (held : text.splitLines[number]? = some shown) (old new : Text) :
    ∃ front back, text = front ++ (shown ++ back) ∧
      applyOnLine text (number + 1) old new = front ++ (replaceFirst old new shown ++ back) ∧
      front.splitLines = text.splitLines.take number ++ [[]] := by
  rcases Text.exists_join_set text.lineBreak held with ⟨back, joined⟩
  have listed : number < text.splitLines.length := (List.getElem?_eq_some_iff.mp held).1
  have whole := joined shown
  rw [set_of_getElem? held, Text.join_lineBreak alike] at whole
  refine ⟨_, back, whole, ?_, Text.splitLines_join
    ((Text.separable_splitLines text).before listed)
    (List.append_ne_nil_of_right_ne_nil _ (List.cons_ne_nil _ _))⟩
  by_cases holds : old <:+: shown
  · rw [applyOnLine_of_holds held holds]
    exact joined _
  · rw [applyOnLine_of_absent held holds, replaceFirst_of_absent holds]
    exact whole

theorem splitLines_applyOnLine (held : text.splitLines[number]? = some shown) (old : Text)
    {new : Text} (nonempty : new ≠ []) (unreturned : '\r' ∉ new) (unbroken : '\n' ∉ new) :
    (applyOnLine text (number + 1) old new).splitLines =
      text.splitLines.set number (replaceFirst old new shown) := by
  have replaced := firstReplaced_replaceFirst old new shown
  by_cases holds : old <:+: shown
  · have separable := (Text.separable_splitLines text).set held
      (fun feed => (replaced.mem feed).elim
        (Text.not_mem_of_mem_splitLines (List.mem_of_getElem? held)) unbroken)
      (replaced.getLast? nonempty unreturned)
    rw [applyOnLine_of_holds held holds]
    refine Text.splitLines_join separable (List.length_pos_iff.mp ?_)
    rw [List.length_set]
    exact Nat.zero_lt_of_lt (List.getElem?_eq_some_iff.mp held).1
  · rw [applyOnLine_of_absent held holds, replaceFirst_of_absent holds, set_of_getElem? held]

/-- An edit by line changes the line with its number, if that holds the old href, at the first
occurrence, and no other line.  With line breaks of one kind the text before that line and behind
it stays as it is, and without such a line the whole text does. -/
theorem applyOnLine_oneLine (text : Text) (line : Int) (old : Text) {new : Text}
    (nonempty : new ≠ []) (unreturned : '\r' ∉ new) (unbroken : '\n' ∉ new) :
    (∀ number : Nat, line = number + 1 → ∀ shown, text.splitLines[number]? = some shown →
      ∃ revised, FirstReplaced old new shown revised ∧
        (applyOnLine text line old new).splitLines = text.splitLines.set number revised ∧
        (text.BreaksAlike → ∃ front back, text = front ++ (shown ++ back) ∧
          applyOnLine text line old new = front ++ (revised ++ back) ∧
          front.splitLines = text.splitLines.take number ++ [[]])) ∧
    ((∀ number : Nat, line = number + 1 → ∀ shown, text.splitLines[number]? = some shown →
        ¬ old <:+: shown) →
      applyOnLine text line old new = text) := by
  constructor
  · rintro number rfl shown held
    exact ⟨_, firstReplaced_replaceFirst old new shown,
      splitLines_applyOnLine held old nonempty unreturned unbroken,
      fun alike => exists_applyOnLine_of_alike alike held old new⟩
  · intro absent
    by_cases present : ∃ (number : Nat) (shown : Text), line = number + 1 ∧
        text.splitLines[number]? = some shown
    · rcases present with ⟨number, shown, rfl, held⟩
      exact applyOnLine_of_absent held (absent number rfl shown held) new
    · refine applyOnLine_of_no_line (fun number numbered => ?_) old new
      rw [Option.eq_none_iff_forall_ne_some]
      exact fun shown held => present ⟨number, shown, numbered, held⟩

/-- The second of three lines, which ends in a carriage return in front of its break. -/
theorem applyOnLine_oneLine_returned :
    (("c.md" : Text) ≠ [] ∧ '\r' ∉ ("c.md" : Text) ∧ '\n' ∉ ("c.md" : Text)) ∧
      Text.splitLines "a\r\nb.md b.md\r\r\nd" = ["a", "b.md b.md\r", "d"] ∧
      ∃ revised, FirstReplaced "b.md" "c.md" "b.md b.md\r" revised ∧
        Text.splitLines (applyOnLine "a\r\nb.md b.md\r\r\nd" 2 "b.md" "c.md") =
          [("a" : Text), revised, ("d" : Text)] ∧
        ∃ front back, ("a\r\nb.md b.md\r\r\nd" : Text) = front ++ ("b.md b.md\r" ++ back) ∧
          applyOnLine "a\r\nb.md b.md\r\r\nd" 2 "b.md" "c.md" = front ++ (revised ++ back) := by
  have nonempty : ("c.md" : Text) ≠ [] := by decide
  have unreturned : '\r' ∉ ("c.md" : Text) := by decide
  have unbroken : '\n' ∉ ("c.md" : Text) := by decide
  have cut : Text.splitLines "a\r\nb.md b.md\r\r\nd" = ["a", "b.md b.md\r", "d"] := by
    decide +kernel
  have alike : Text.BreaksAlike "a\r\nb.md b.md\r\r\nd" := by decide +kernel
  obtain ⟨revised, replaced, lines, kept⟩ := (applyOnLine_oneLine "a\r\nb.md b.md\r\r\nd" 2 "b.md"
    nonempty unreturned unbroken).1 1 rfl "b.md b.md\r" (by rw [cut]; rfl)
  rcases kept alike with ⟨front, back, whole, made, _⟩
  rw [cut] at lines
  exact ⟨⟨nonempty, unreturned, unbroken⟩, cut, revised, replaced, lines, front, back, whole, made⟩

-- Breaks of both kinds all become wide.
example : applyOnLine "a\r\nb\nc" 2 "b" "B" = "a\r\nB\r\nc" := by decide +kernel

end Edit
end Crosslink

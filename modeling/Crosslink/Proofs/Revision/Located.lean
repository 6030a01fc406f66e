import Crosslink.Proofs.Link.Redirected
import Crosslink.Proofs.Revision.Linkwise
import Crosslink.Proofs.Revision.Step

namespace Crosslink

/-!
What normalization leaves of the texts of links.  Where it knows the place of each destination that
it changes, and the old and the new ones are plain words between a parenthesis and what ends a
destination, the links of the text that it leaves have the texts that they had.  An edit that knows
its line only is made at the first place of the line that spells the href, which may lie in the
label of a link.
-/

namespace Normalize

open Edit

variable {present : Text → Except Failure Bool} {cwd file content : Text} {rules : Rules}
  {replacements : List Replacement} {broken : List BrokenLink}

/-- The replacements of a run copy different links, in their order. -/
theorem exists_origins
    (made : (generate present cwd rules file (extractLinks content)).result =
      .ok (replacements, broken)) :
    ∃ origins : List Link, origins.Sublist (extractLinks content) ∧
      List.Forall₂ Replacement.Copies replacements origins := by
  have governed := governed_treat present cwd rules file
  rcases Generation.exists_origins (fun _ => true) Replacement.Copies
      (fun link treatment replacement treated written =>
        ⟨rfl, governed.copies rules.exclusions link treatment replacement treated written⟩)
      (extractLinks content) with ⟨origins, among, copied⟩
  rw [List.filter_true] at among
  exact ⟨origins, among, (Generation.result_eq_ok made).1 ▸ copied⟩

/-- A run whose edits all put one plain word in the place of another, in the range that they know,
leaves the texts of the links as they are, and lets each link lead where it led or where a
replacement of its href says. -/
theorem texts_of_tame {σ : Type} [Files σ] (files : σ)
    (made : (generate (Files.present files) cwd rules file (extractLinks content)).result =
      .ok (replacements, broken))
    (clear : content.Clear)
    (tame : ∀ replacement ∈ replacements, ∃ placed, Placed.of? replacement = some placed ∧
      placed.Tame content) :
    ∃ outcome, Batch.revise (Batch.normalizing cwd rules files file) content =
        .ok (outcome, broken) ∧
      (extractLinks outcome.content).map (·.text) = (extractLinks content).map (·.text) ∧
      List.Forall₂ (Link.Redirected replacements) (extractLinks content)
        (extractLinks outcome.content) := by
  rcases exists_origins made with ⟨origins, among, copied⟩
  have redirected := Link.redirected_of_copies defaultWindow copied among clear tame
  refine ⟨Edit.apply defaultWindow content replacements, ?_, Link.texts_of_redirected redirected,
    redirected⟩
  exact Batch.revise_eq_ok_iff.mpr ⟨replacements, made, rfl⟩

/-- A link whose label spells its href. -/
theorem texts_of_tame_labelled :
    let content : Text := "[./a.md](./a.md)"
    let store := Store.ofFiles "/" [("/d/a.md", [])] []
    let rules : Rules := { root := "/d", folders := [], exclusions := [] }
    let replacement : Replacement :=
      { line := 1, oldHref := "./a.md", newHref := "a.md", start? := some 9, stop? := some 15
        kind? := some Replacement.normalizedRel }
    (generate (Files.present store) "/" rules "/d/h.md" (extractLinks content)).result =
        .ok ([replacement], []) ∧
      ∃ outcome, Batch.revise (Batch.normalizing "/" rules store "/d/h.md") content =
          .ok (outcome, []) ∧
        (extractLinks outcome.content).map (·.text) = (extractLinks content).map (·.text) ∧
        List.Forall₂ (Link.Redirected [replacement]) (extractLinks content)
          (extractLinks outcome.content) := by
  intro content store rules replacement
  have made : (generate (Files.present store) "/" rules "/d/h.md" (extractLinks content)).result =
      .ok ([replacement], []) := by decide +kernel
  refine ⟨made, texts_of_tame store made (Text.clear_of_isClear (by decide +kernel))
    fun other asked => ?_⟩
  cases List.mem_singleton.mp asked
  exact ⟨{ start := 9, stop := 15, replacement }, rfl,
    Edit.Placed.isTame_iff.mp (by decide +kernel)⟩

/-- A destination that closes more parentheses than it opens makes a link of its own. -/
example :
    let store := Store.ofFiles "/" [("/d/)[z](b)", [])] []
    let rules : Rules := { root := "/d", folders := [], exclusions := [] }
    let content : Text := "[x](q(/../)[z](b))"
    let revised := Batch.revise (Batch.normalizing "/" rules store "/d/h.md") content
    (extractLinks content).map (·.text) = [("x" : Text)] ∧
      (revised.map fun found => (extractLinks found.1.content).map (·.text)) =
        .ok [("x" : Text), "z"] := by decide +kernel

end Normalize
end Crosslink

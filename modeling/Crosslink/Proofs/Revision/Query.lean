import Crosslink.Proofs.Revision.Classes
import Crosslink.Proofs.Revision.Losses

namespace Crosslink
namespace Check

/-!
Links with a query.  A normalization looks for the path of a link, and a check looks for all that is
written in front of the anchor.  The two look for the same target where a link has no query, whatever
marks its anchor holds.  A link with a query is passed over only if the query is the end of the name
of something that is there; otherwise one replacement or one report is emitted, even if its path
leads to something.
-/

section

variable (store : Store) (cwd : Text) (rules : Rules) (file : Text)

/-- What is written leads to something in the store. -/
def Finds (written : Text) : Prop :=
  ∃ target, Target.path? cwd rules.folders rules.root file written = .ok target ∧
    store.present target = true

end

variable {store : Store} {cwd file : Text} {rules : Rules} {link : Link}

/-- What a check of a single link emits: nothing, if what is written in front of the anchor leads to
something, and else one replacement or one report. -/
theorem exists_result_singleton (store : Store) (cwd file : Text) (lines : List Text)
    (unskipped : Href.isSkipped rules.exclusions link.href = false) :
    ∃ replacements broken,
      (generate (Files.present store) cwd rules file lines [link]).result =
          .ok (replacements, broken) ∧
        replacements.length + broken.length ≤ 1 ∧
        (replacements = [] ∧ broken = [] ↔
          Finds store cwd rules file (Href.withoutAnchor link.href)) := by
  have led := path?_withoutAnchor cwd file unskipped
  rcases exists_falls store.present cwd rules file link.href with ⟨cls, falls⟩
  rcases exists_treat lines falls with ⟨treatment, treated, _⟩
  have counted := length_of_treat treated
  rw [isMissing_eq unskipped led rfl] at counted
  refine ⟨treatment.replacement?.toList, treatment.broken?.toList, ?_, ?_, ?_⟩
  · exact Generation.result_ofLinks_singleton treated
  · rw [counted]
    split <;> decide
  · rw [← List.length_eq_zero_iff, ← List.length_eq_zero_iff, ← Nat.add_eq_zero_iff, counted]
    cases there : store.present
        (Target.path cwd rules.folders rules.root file (Href.withoutAnchor link.href)) with
    | true => exact ⟨fun _ => ⟨_, led, there⟩, fun _ => rfl⟩
    | false =>
        constructor
        · intro impossible
          cases impossible
        · rintro ⟨target, again, found⟩
          cases led.symm.trans again
          cases there.symm.trans found

/-- Wherever a link stands whose path leads to something, a check emits nothing for it exactly if the
path with the query behind it leads to something, as it does without a query.  Else one replacement
or one report is emitted. -/
theorem generate_insert_found (lines : List Text) (before after : List Link)
    (unskipped : Href.isSkipped rules.exclusions link.href = false)
    (found : Finds store cwd rules file (Href.split link.href).path) :
    let result (links : List Link) :=
      (generate (Files.present store) cwd rules file lines links).result
    ∃ replacements broken,
      result (before ++ link :: after) = Generation.joined (result before)
          (Generation.joined (.ok (replacements, broken)) (result after)) ∧
        replacements.length + broken.length ≤ 1 ∧
        (replacements = [] ∧ broken = [] ↔
          Finds store cwd rules file
            ((Href.split link.href).path ++ (Href.split link.href).query)) ∧
        ((Href.split link.href).query = [] → replacements = [] ∧ broken = []) := by
  intro result
  rcases exists_result_singleton store cwd file lines unskipped with
    ⟨replacements, broken, single, few, quiet⟩
  rw [← Href.path_append_query] at quiet
  refine ⟨replacements, broken, ?_, few, quiet, fun none => quiet.mpr ?_⟩
  · rw [← single]
    exact (Generation.result_ofLinks_append before ([link] ++ after)).trans
      (congrArg _ (Generation.result_ofLinks_append [link] after))
  · rw [none, List.append_nil]
    exact found

/-- A link with a query, whose path leads to a file, is reported behind a link whose anchor holds the
marks of both. -/
theorem generate_insert_found_query :
    let store := Store.ofFiles "/" [("/d/b.md", [])] []
    let rules : Rules := { folders := [], root := "/d", exclusions := [] }
    let sound : Link := { href := "b.md#a?x", text := "", line := 1, start? := none, stop? := none }
    let link : Link := { href := "b.md?x", text := "", line := 2, start? := none, stop? := none }
    let result (links : List Link) :=
      (generate (Files.present store) "/" rules "/d/a.md" [] links).result
    (Href.isSkipped rules.exclusions link.href = false ∧
        Finds store "/" rules "/d/a.md" (Href.split link.href).path) ∧
      (∃ replacements broken,
        result [sound, link] = Generation.joined (result [sound])
            (Generation.joined (.ok (replacements, broken)) (result [])) ∧
          replacements.length + broken.length ≤ 1) ∧
      result [sound, link] = .ok ([], [{ file := "/d/a.md", lineNumber := 2, line := [] }]) := by
  intro store rules sound link result
  have unskipped : Href.isSkipped rules.exclusions link.href = false := by decide
  have found : Finds store "/" rules "/d/a.md" (Href.split link.href).path :=
    ⟨"/d/b.md", by decide +kernel, by decide +kernel⟩
  rcases generate_insert_found [] [sound] [] unskipped found with
    ⟨replacements, broken, joined, few, _⟩
  exact ⟨⟨unskipped, found⟩, ⟨replacements, broken, joined, few⟩, by decide +kernel⟩

/-- A link whose path leads to a file and that is reported all the same. -/
theorem generate_reports_query :
    let store := Store.ofFiles "/" [("/d/b.md", [])] []
    let rules : Rules := { folders := [], root := "/d", exclusions := [] }
    let link : Link := { href := "b.md?x", text := "", line := 1, start? := none, stop? := none }
    Path.isAbsolute "/d/a.md" = true ∧ Href.isSkipped rules.exclusions link.href = false ∧
      (Href.split link.href).path ≠ [] ∧
      Finds store "/" rules "/d/a.md" (Href.split link.href).path ∧
      (generate (Files.present store) "/" rules "/d/a.md" [] [link]).result =
        .ok ([], [{ file := "/d/a.md", lineNumber := 1, line := [] }]) := by
  intro store rules link
  exact ⟨by decide, by decide, by decide, ⟨"/d/b.md", by decide +kernel, by decide +kernel⟩,
    by decide +kernel⟩

end Check
end Crosslink

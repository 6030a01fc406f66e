import Crosslink.Proofs.Href.Kind
import Crosslink.Proofs.Revision.Linkwise

namespace Crosslink

/-!
Links that no rule revises because of where they lead.  A rule does not ask for the kind of a link;
it asks whether the link is external.  The kinds that leave the tree of files are external whatever
is excluded, so a rule does to a text with such links what it does to the text without them.  The
converse fails for schemes that have no kind of their own: they are external, and their kind is the
one that they would have if the scheme were the name of a file.
-/

namespace Batch

variable {σ : Type} [Files σ]

theorem Task.rule_filter_leaves (task : Task) (cwd : Text) (files : σ) (file : Text)
    (links : List Link) (lines : List Text) :
    task.rule cwd files file links lines =
      task.rule cwd files file (links.filter fun link => !(Href.kind link.href).leaves) lines := by
  have governed := task.governed_treat cwd files file lines
  rw [task.rule_eq_ofLinks, task.rule_eq_ofLinks]
  refine Generation.ofLinks_filter _ ?passed (fun _ _ => rfl) links
  intro link outside
  rw [Bool.not_eq_eq_eq_not, Bool.not_false] at outside
  exact governed.skipped _ link (Href.isSkipped_of_leaves outside _)

/-- A replacement is one of an href that may be touched. -/
theorem Task.unskipped_of_mem {task : Task} {cwd : Text} {files : σ} {file : Text}
    {links : List Link} {lines : List Text} {replacement : Replacement}
    (emitted : replacement ∈ (task.rule cwd files file links lines).replacements) :
    Href.isSkipped task.exclusions replacement.oldHref = false := by
  have governed := task.governed_treat cwd files file lines
  rw [task.rule_eq_ofLinks] at emitted
  rcases Generation.exists_of_mem_replacements emitted with
    ⟨link, _, treatment, treated, written⟩
  have allowed := governed.unskipped_of_replacement treated written
  rw [(governed.copies _ link treatment replacement treated written).oldHref]
  rw [Bool.not_eq_eq_eq_not, Bool.not_true] at allowed
  exact allowed

end Batch

namespace Href

/-- An href of a kind that leaves the tree of files is external, and it is skipped whatever is
excluded.  An external href is neither absolute nor without a kind, and if it counts as relative it
begins with `http:`, with `https:`, or with a scheme and `://`.  And no rule replaces an href of a
kind that leaves the tree of files: it makes of some links what it makes of them without those. -/
theorem external_kinds_untouched (href : Text) :
    ((kind href).leaves = true →
        isExternal href = true ∧ ∀ exclusions, isSkipped exclusions href = true) ∧
      (isExternal href = true →
        kind href ≠ .absolute ∧ kind href ≠ .other ∧
          (kind href = .relative → NamesScheme href.trim)) ∧
      ∀ {σ : Type} [Files σ] (task : Batch.Task) (cwd : Text) (files : σ) (file : Text)
        (links : List Link) (lines : List Text),
        (∀ replacement ∈ (task.rule cwd files file links lines).replacements,
          (kind replacement.oldHref).leaves = false) ∧
        task.rule cwd files file links lines =
          task.rule cwd files file (links.filter fun link => !(kind link.href).leaves) lines := by
  refine ⟨fun leaves => ?_, fun external => ?_, fun task cwd files file links lines => ⟨?_, ?_⟩⟩
  · exact ⟨(isExternal_iff href).mpr (Or.inl leaves), isSkipped_of_leaves leaves⟩
  · rcases (isExternal_iff href).mp external with leaves | ⟨relative, names⟩
    · cases sorted : kind href with
      | http => exact ⟨nofun, nofun, nofun⟩
      | mailto => exact ⟨nofun, nofun, nofun⟩
      | anchor => exact ⟨nofun, nofun, nofun⟩
      | relative | absolute | other =>
          rw [sorted] at leaves
          cases leaves
    · rw [relative]
      exact ⟨nofun, nofun, fun _ => names⟩
  · intro replacement emitted
    have unskipped := Batch.Task.unskipped_of_mem emitted
    rw [Bool.eq_false_iff]
    intro leaves
    rw [isSkipped_of_leaves leaves] at unskipped
    cases unskipped
  · exact task.rule_filter_leaves cwd files file links lines

/-- A long s in the scheme behind a wide blank, which an exchange of the empty beginning passes
over, and a Kelvin sign in a scheme without a kind. -/
theorem external_kinds_untouched_folded :
    let web : Text := "\u2003HTTP\u017F://x/a.md"
    let other : Text := "\u212Aio://x"
    let link (href : Text) : Link := { href, text := [], line := 1, start? := none, stop? := none }
    let made := ((Batch.Task.substituting [] "b/" []).rule "/" (Store.ofFiles "/" [] []) "/a.md"
      [link web, link "c.md"] []).replacements
    ((kind web).leaves = true ∧ isExternal web = true ∧
        ∀ exclusions, isSkipped exclusions web = true) ∧
      (isExternal other = true ∧ kind other = .relative ∧ NamesScheme other.trim) ∧
      made.map (·.newHref) = ["b/c.md"] ∧
      ∀ replacement ∈ made, (kind replacement.oldHref).leaves = false := by
  intro web other link made
  have leaves : (kind web).leaves = true := by decide +kernel
  have external : isExternal other = true := by decide +kernel
  have relative : kind other = .relative := by decide +kernel
  exact ⟨⟨leaves, (external_kinds_untouched web).1 leaves⟩,
    ⟨external, relative, ((external_kinds_untouched other).2.1 external).2.2 relative⟩,
    by decide +kernel, ((external_kinds_untouched web).2.2 _ _ _ _ _ _).1⟩

end Href
end Crosslink

import Crosslink.Proofs.Href.Parts
import Crosslink.Proofs.Link.Target
import Crosslink.Proofs.Revision.Generation
import Crosslink.Revision.Normalize

namespace Crosslink
namespace Normalize

/-!
The canonical form of a link.  Where presence can be asked for without failing, the two
ways of writing a link come down to one question: which form its target has, as seen from
the file.  A run revises a link exactly if its target is there and has a form other than
the path that is written; and the form is read off from the places of the file, of the root
and of the target.
-/

/-- What a link leads to, its query and its anchor left aside. -/
def targetOf (cwd : Text) (rules : Rules) (file href : Text) : Text :=
  Target.path cwd rules.folders rules.root file (Href.split href).path

/-- The canonical form of a target that is there, with the way it was found. -/
def canonical? (cwd root file href target : Text) : Option (Strategy × Text) :=
  match fromHost? cwd file href target with
  | some path => some (.relative, path)
  | none =>
    match fromRoot? cwd root target with
    | some name => if name = indexName then none else some (.singleFile, name)
    | none => none

/-- A link that a run leaves as it is: no revision may touch it, or it has a path that is
the canonical form of its target, if the target is there and has one. -/
def Settled (present : Text → Bool) (cwd : Text) (rules : Rules) (file href : Text) : Prop :=
  Href.isSkipped rules.exclusions href = true ∨
    ((Href.split href).path ≠ [] ∧
      (present (targetOf cwd rules file href) = true → ∀ strategy path,
        canonical? cwd rules.root file href (targetOf cwd rules file href) =
          some (strategy, path) → path = (Href.split href).path))

variable {present : Text → Bool} {cwd file : Text} {rules : Rules} {link : Link}

/-! ## Where a form comes from -/

/-- A form is found from the directory of the file, and from the root only if none is found there. -/
theorem canonical?_eq_some_iff {root href target path : Text} {strategy : Strategy} :
    canonical? cwd root file href target = some (strategy, path) ↔
      (fromHost? cwd file href target = some path ∧ strategy = .relative) ∨
        (fromHost? cwd file href target = none ∧ fromRoot? cwd root target = some path ∧
          path ≠ indexName ∧ strategy = .singleFile) := by
  constructor
  · intro form
    unfold canonical? at form
    split at form
    · next near =>
        cases form
        exact Or.inl ⟨near, rfl⟩
    · next away =>
        split at form
        · next inRoot =>
            split at form
            · cases form
            · next notIndex =>
                cases form
                exact Or.inr ⟨away, inRoot, notIndex, rfl⟩
        · cases form
  · rintro (⟨near, rfl⟩ | ⟨away, inRoot, notIndex, rfl⟩)
    · unfold canonical?
      rw [near]
    · unfold canonical?
      rw [away, inRoot]
      exact if_neg notIndex

/-- There is no form if nothing is found from the directory of the file and nothing but the name of
an index from the root. -/
theorem canonical?_eq_none_iff {root href target : Text} :
    canonical? cwd root file href target = none ↔
      fromHost? cwd file href target = none ∧
        ∀ name, fromRoot? cwd root target = some name → name = indexName := by
  constructor
  · intro formless
    have away : fromHost? cwd file href target = none := by
      refine Option.eq_none_iff_forall_ne_some.mpr fun near found => ?_
      cases formless.symm.trans (canonical?_eq_some_iff.mpr (Or.inl ⟨found, rfl⟩))
    refine ⟨away, fun name inRoot => ?_⟩
    by_contra notIndex
    cases formless.symm.trans
      (canonical?_eq_some_iff.mpr (Or.inr ⟨away, inRoot, notIndex, rfl⟩))
  · rintro ⟨away, named⟩
    refine Option.eq_none_iff_forall_ne_some.mpr fun ⟨strategy, path⟩ form => ?_
    rcases canonical?_eq_some_iff.mp form with ⟨near, _⟩ | ⟨_, inRoot, notIndex, _⟩
    · cases away.symm.trans near
    · exact notIndex (named path inRoot)

/-! ## What a run makes of a link -/

theorem treatTarget_of_form {target path : Text} {strategy : Strategy} (parts : Href.Parts)
    (found : present target = true)
    (form : canonical? cwd rules.root file link.href target = some (strategy, path)) :
    treatTarget (fun place => .ok (present place)) cwd rules file link parts target =
      .ok (revise file link parts strategy path) := by
  unfold treatTarget treatAtRoot
  rcases canonical?_eq_some_iff.mp form with ⟨near, rfl⟩ | ⟨away, inRoot, notIndex, rfl⟩
  · simp only [near, found]
  · simp only [away, inRoot, if_neg notIndex, found]

theorem treatTarget_of_no_form {target : Text} (parts : Href.Parts)
    (formless : present target = true →
      canonical? cwd rules.root file link.href target = none) :
    treatTarget (fun place => .ok (present place)) cwd rules file link parts target =
      .ok Treatment.none := by
  unfold treatTarget
  cases found : present target with
  | true =>
      rcases canonical?_eq_none_iff.mp (formless found) with ⟨away, named⟩
      simp only [away]
      unfold treatAtRoot
      cases inRoot : fromRoot? cwd rules.root target with
      | none => rfl
      | some name => exact if_pos (named name inRoot)
  | false =>
      -- What is missing is left as it is, wherever it would be.
      have atRoot : treatAtRoot (fun place => .ok (present place)) cwd rules file link parts
          target = .ok Treatment.none := by
        unfold treatAtRoot
        simp only [found]
        split
        · rfl
        · exact ite_self _
      simp only [atRoot, found]
      split <;> rfl

/-- All that a run can make of a link: nothing, if no revision may touch it; a failure, if it
has no path; nothing, if its target is not there or has no form; and else the link written
with that form. -/
theorem treat_cases (present : Text → Bool) (cwd : Text) (rules : Rules) (file : Text)
    (link : Link) :
    (Href.isSkipped rules.exclusions link.href = true ∧
        treat (fun place => .ok (present place)) cwd rules file link = .ok Treatment.none) ∨
      (Href.isSkipped rules.exclusions link.href = false ∧ (Href.split link.href).path = [] ∧
        treat (fun place => .ok (present place)) cwd rules file link = .error .emptyLinkPath) ∨
      (Href.isSkipped rules.exclusions link.href = false ∧ (Href.split link.href).path ≠ [] ∧
        (present (targetOf cwd rules file link.href) = true →
          canonical? cwd rules.root file link.href (targetOf cwd rules file link.href) = none) ∧
        treat (fun place => .ok (present place)) cwd rules file link = .ok Treatment.none) ∨
      (Href.isSkipped rules.exclusions link.href = false ∧ (Href.split link.href).path ≠ [] ∧
        present (targetOf cwd rules file link.href) = true ∧ ∃ strategy path,
          canonical? cwd rules.root file link.href (targetOf cwd rules file link.href) =
            some (strategy, path) ∧
          treat (fun place => .ok (present place)) cwd rules file link =
            .ok (revise file link (Href.split link.href) strategy path)) := by
  cases skip : Href.isSkipped rules.exclusions link.href with
  | true =>
      left
      exact ⟨rfl, if_pos skip⟩
  | false =>
      right
      by_cases written : (Href.split link.href).path = []
      · left
        refine ⟨rfl, written, ?_⟩
        rw [treat, skip, if_neg Bool.false_ne_true]
        simp only [written]
        rfl
      · right
        have nonempty : ¬ (Href.split link.href).path.isEmpty = true :=
          fun empty => written (List.isEmpty_iff.mp empty)
        have reached : treat (fun place => .ok (present place)) cwd rules file link =
            treatTarget (fun place => .ok (present place)) cwd rules file link
              (Href.split link.href) (targetOf cwd rules file link.href) := by
          rw [treat, skip, if_neg Bool.false_ne_true]
          simp only [Target.path?, if_neg nonempty]
          rfl
        by_cases formless : present (targetOf cwd rules file link.href) = true →
            canonical? cwd rules.root file link.href (targetOf cwd rules file link.href) = none
        · left
          exact ⟨rfl, written, formless, reached.trans (treatTarget_of_no_form _ formless)⟩
        · right
          rcases Classical.not_imp.mp formless with ⟨found, formed⟩
          rcases Option.ne_none_iff_exists'.mp formed with ⟨⟨strategy, path⟩, form⟩
          exact ⟨rfl, written, found, strategy, path, form,
            reached.trans (treatTarget_of_form _ found form)⟩

theorem revise_of_same {parts : Href.Parts} {strategy : Strategy} {path : Text}
    (same : path ++ parts.query ++ parts.anchor = link.href) :
    revise file link parts strategy path = Treatment.none :=
  if_pos same

theorem revise_of_other (file : Text) {parts : Href.Parts} (strategy : Strategy) {path : Text}
    (other : path ++ parts.query ++ parts.anchor ≠ link.href) :
    ∃ replacement, (revise file link parts strategy path).replacement? = some replacement ∧
      replacement.newHref = path ++ parts.query ++ parts.anchor := by
  simp only [revise, if_neg other]
  exact ⟨_, rfl, rfl⟩

theorem revise_broken (parts : Href.Parts) (strategy : Strategy) (path : Text) :
    (revise file link parts strategy path).broken? = none := by
  by_cases same : path ++ parts.query ++ parts.anchor = link.href
  · rw [revise_of_same same]
    rfl
  · simp only [revise, if_neg same]

/-- Writing a link with another path changes the link exactly if the path is another one. -/
theorem revise_eq_none_iff (strategy : Strategy) (path : Text) :
    (revise file link (Href.split link.href) strategy path).replacement? = none ↔
      path = (Href.split link.href).path := by
  have whole := Href.parts_append link.href
  constructor
  · intro kept
    by_cases same :
        path ++ (Href.split link.href).query ++ (Href.split link.href).anchor = link.href
    · rw [List.append_assoc] at same whole
      exact List.append_cancel_right (same.trans whole.symm)
    · rcases revise_of_other file strategy same with ⟨replacement, revised, _⟩
      rw [kept] at revised
      cases revised
  · intro same
    rw [same, revise_of_same whole]
    rfl

/-- What is known when a link is revised. -/
structure Revised (present : Text → Bool) (cwd : Text) (rules : Rules) (file href newHref : Text)
    (strategy : Strategy) (path : Text) : Prop where
  /-- The link has a path. -/
  nonempty : (Href.split href).path ≠ []
  /-- The target of the link is there. -/
  found : present (targetOf cwd rules file href) = true
  /-- The target has the canonical form that is written. -/
  form : canonical? cwd rules.root file href (targetOf cwd rules file href) = some (strategy, path)
  /-- The query and the anchor are kept. -/
  keeps : newHref = path ++ (Href.split href).query ++ (Href.split href).anchor

theorem revised_of_mem_generate {replacement : Replacement}
    (emitted : replacement ∈
      (generate (fun place => .ok (present place)) cwd rules file [link]).replacements) :
    ∃ strategy path,
      Revised present cwd rules file link.href replacement.newHref strategy path := by
  rcases Generation.mem_replacements_singleton.mp emitted with ⟨treatment, treated, revised⟩
  rcases treat_cases present cwd rules file link with
    ⟨_, left⟩ | ⟨_, _, failed⟩ | ⟨_, _, _, left⟩ | ⟨_, written, found, strategy, path, form, made⟩
  · cases left.symm.trans treated
    cases revised
  · cases failed.symm.trans treated
  · cases left.symm.trans treated
    cases revised
  · cases made.symm.trans treated
    refine ⟨strategy, path, written, found, form, ?_⟩
    by_cases same : path ++ (Href.split link.href).query ++ (Href.split link.href).anchor =
        link.href
    · rw [revise_of_same same] at revised
      cases revised
    · rcases revise_of_other file strategy same with ⟨other, replaced, newHref⟩
      rw [replaced] at revised
      cases revised
      exact newHref

/-- A run over a single link comes to its end without a replacement exactly if the link is
settled. -/
theorem generate_eq_nil_iff_settled :
    (generate (fun place => .ok (present place)) cwd rules file [link]).result = .ok ([], []) ↔
      Settled present cwd rules file link.href := by
  rw [generate, Generation.result_singleton_eq_nil_iff, Settled]
  rcases treat_cases present cwd rules file link with
    ⟨skipped, left⟩ | ⟨unskipped, empty, failed⟩ | ⟨unskipped, written, formless, left⟩ |
      ⟨unskipped, written, found, strategy, path, form, made⟩
  · constructor
    · intro _
      exact Or.inl skipped
    · intro _
      exact ⟨Treatment.none, left, rfl, rfl⟩
  · rw [failed, unskipped]
    constructor
    · rintro ⟨_, impossible, _⟩
      cases impossible
    · rintro (impossible | ⟨written, _⟩)
      · cases impossible
      · exact absurd empty written
  · constructor
    · intro _
      refine Or.inr ⟨written, ?_⟩
      intro found strategy path form
      rw [formless found] at form
      cases form
    · intro _
      exact ⟨Treatment.none, left, rfl, rfl⟩
  · rw [made, unskipped]
    constructor
    · rintro ⟨_, same, kept, _⟩
      cases same
      refine Or.inr ⟨written, ?_⟩
      intro _ other otherPath otherForm
      rw [form] at otherForm
      cases otherForm
      exact (revise_eq_none_iff strategy path).mp kept
    · rintro (impossible | ⟨_, settled⟩)
      · cases impossible
      · exact ⟨_, rfl, (revise_eq_none_iff strategy path).mpr (settled found _ _ form),
          revise_broken _ _ _⟩

end Normalize
end Crosslink

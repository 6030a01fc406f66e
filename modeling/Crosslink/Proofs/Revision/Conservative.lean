import Crosslink.Proofs.Revision.Linkwise
import Crosslink.Proofs.Revision.Preservation

namespace Crosslink
namespace Normalize

/-!
What a normalization is ready to write.  A link is written anew only if the target of its path is
there, and then in another spelling that keeps the query and the anchor behind the path.  That
the new spelling does not begin with two dots has to hold for both kinds of canonical form.  A
name in the root is tested for it just before it is written.  A path from the directory of the
file is tested before a `./` in front is taken away, but after its backslashes have become
slashes: a file named `.\..` would pass the test as `./..` and be written as `..`.  Without
backslashes in the links and in the root no such name is met, since the names on the way down
come from one or the other.
-/

variable {cwd file href path : Text} {rules : Rules} {link : Link} {strategy : Strategy}

/-- Text behind a path does not make it climb if that text does not begin with a dot. -/
theorem climbs_append {path tail : Text} (flat : climbs path = false)
    (undotted : ∀ rest, tail ≠ '.' :: rest) : climbs (path ++ tail) = false := by
  rw [climbs, Bool.eq_false_iff, ne_eq, Text.startsWith_iff] at flat ⊢
  rintro ⟨rest, begins⟩
  -- The two dots may stand across the end of the path only if the tail begins with one.
  cases path with
  | nil => exact undotted ('.' :: rest) begins.symm
  | cons c path =>
      cases path with
      | nil => exact undotted rest (List.cons.inj begins).2.symm
      | cons d more =>
          have first := (List.cons.inj begins).1
          have second := (List.cons.inj (List.cons.inj begins).2).1
          exact flat ⟨more, congrArg₂ (fun c d => c :: d :: more) first second⟩

/-- Names by which a target lies below the directory of its file are made of what is written in
the link or in the root. -/
theorem backslash_not_mem_below (rooted : Path.isAbsolute rules.root = true)
    (absolute : Path.isAbsolute file = true) (plainRoot : '\\' ∉ rules.root)
    (plainHref : '\\' ∉ href) {tail : List Text}
    (below : Path.place (targetOf cwd rules file href) = Path.place (Path.hostDir file) ++ tail) :
    ∀ name ∈ tail, '\\' ∉ name := by
  intro name member held
  have led := place_targetOf cwd rooted absolute href
  have notWritten : name ∉ (Href.split href).path.splitOn '/' := fun written =>
    plainHref (Href.mem_of_mem_path (Text.mem_of_mem_splitOn written held))
  rw [Target.origin] at led
  split at led
  · -- Read in the root, what lies below the file may still be part of the root itself.
    rcases Path.follow_eq_take_append (Path.place rules.root) (Href.split href).path with
      ⟨count, added, followed, written⟩
    have among : name ∈ (Path.place rules.root).take count ++ added := by
      rw [← followed, ← led, below]
      exact List.mem_append_right _ member
    rcases List.mem_append.mp among with ofRoot | ofHref
    · exact plainRoot (Path.mem_of_mem_place (List.mem_of_mem_take ofRoot) held)
    · exact notWritten (written name ofHref)
  · exact notWritten (Path.mem_splitOn_of_follow_below (led.symm.trans below) member)

theorem flat_of_canonical? (rooted : Path.isAbsolute rules.root = true)
    (absolute : Path.isAbsolute file = true) (plainRoot : '\\' ∉ rules.root)
    (plainHref : '\\' ∉ href)
    (form : canonical? cwd rules.root file href (targetOf cwd rules file href) =
      some (strategy, path)) : climbs path = false := by
  have targetAbsolute := isAbsolute_targetOf cwd rooted absolute href
  cases climbing : climbs (Path.relativeHref cwd (Path.hostDir file)
    (targetOf cwd rules file href)) with
  | true => exact (child_of_canonical? rooted targetAbsolute climbing form).2
  | false =>
      rcases below_of_not_climbs absolute targetAbsolute climbing with ⟨tail, below⟩
      have noBackslash := backslash_not_mem_below rooted absolute plainRoot plainHref below
      rcases form_of_below absolute targetAbsolute below noBackslash climbing form with
        ⟨empty, _, _⟩ | ⟨_, flat⟩
      · rw [empty]
        rfl
      · exact flat

theorem of_revise {parts : Href.Parts} {replacement : Replacement}
    (written : (revise file link parts strategy path).replacement? = some replacement) :
    replacement.newHref = path ++ parts.query ++ parts.anchor ∧
      replacement.newHref ≠ link.href ∧ replacement.kind? = some Replacement.normalizedRel := by
  by_cases same : path ++ parts.query ++ parts.anchor = link.href
  · rw [revise_of_same same] at written
    cases written
  · simp only [revise, if_neg same] at written
    cases written
    exact ⟨rfl, same, rfl⟩

/-- Over a store in memory, each replacement that a normalization is ready to make belongs to a
link whose path leads to something.  It writes the link anew in another spelling that does not
begin with two dots, with its query and its anchor behind. -/
theorem generate_conservative (store : Store) (cwd : Text) (rules : Rules) (file : Text)
    (links : List Link) (rooted : Path.isAbsolute rules.root = true)
    (absolute : Path.isAbsolute file = true) (plainRoot : '\\' ∉ rules.root)
    (plainLinks : ∀ link ∈ links, '\\' ∉ link.href) :
    ∀ replacement ∈ (generate (Files.present store) cwd rules file links).replacements,
      ∃ link ∈ links, replacement.Copies link ∧
        (∃ target, Target.path? cwd rules.folders rules.root file (Href.split link.href).path =
          .ok target ∧ store.present target = true) ∧
        replacement.newHref ≠ replacement.oldHref ∧
        replacement.kind? = some "normalizedRel" ∧
        replacement.newHref.startsWith ".." = false ∧
        (Href.split link.href).query ++ (Href.split link.href).anchor <:+ replacement.newHref := by
  intro replacement emitted
  rcases Generation.exists_of_mem_replacements emitted with
    ⟨link, listed, treatment, treated, written⟩
  have copies := (governed_treat (Files.present store) cwd rules file).copies rules.exclusions link
    treatment replacement treated written
  rcases treat_cases store.present cwd rules file link with
    ⟨_, left⟩ | ⟨_, _, failed⟩ | ⟨_, _, _, left⟩ | ⟨_, proper, found, strategy, path, form, made⟩
  · cases left.symm.trans treated
    cases written
  · cases failed.symm.trans treated
  · cases left.symm.trans treated
    cases written
  · cases made.symm.trans treated
    rcases of_revise written with ⟨newHref, other, kind⟩
    have flat := flat_of_canonical? rooted absolute plainRoot (plainLinks link listed) form
    have nonempty : ¬ (Href.split link.href).path.isEmpty = true :=
      fun empty => proper (List.isEmpty_iff.mp empty)
    rw [List.append_assoc] at newHref
    refine ⟨link, listed, copies, ⟨_, if_neg nonempty, found⟩, copies.oldHref ▸ other, kind, ?_, ?_⟩
    · rw [newHref]
      exact climbs_append flat (Href.query_append_anchor_ne link.href)
    · rw [newHref]
      exact List.suffix_append path _

/-- A link that goes up and down again, with a query and an anchor. -/
theorem generate_conservative_around :
    let store := Store.ofFiles "/" [("/d/docs/b.md", [])] []
    let rules : Rules := { folders := ["docs"], root := "/d", exclusions := [] }
    let link : Link :=
      { href := "../docs/b.md?x#t", text := [], line := 3, start? := some 7, stop? := some 23 }
    let replacement : Replacement :=
      { line := 3, oldHref := "../docs/b.md?x#t", newHref := "b.md?x#t", start? := some 7
        stop? := some 23, kind? := some Replacement.normalizedRel }
    (Path.isAbsolute rules.root = true ∧ Path.isAbsolute "/d/docs/a.md" = true ∧
        '\\' ∉ rules.root ∧ '\\' ∉ link.href) ∧
      (generate (Files.present store) "/" rules "/d/docs/a.md" [link]).replacements =
        [replacement] ∧
      ∃ other ∈ [link], replacement.Copies other ∧
        (∃ target, Target.path? "/" rules.folders rules.root "/d/docs/a.md"
          (Href.split other.href).path = .ok target ∧ store.present target = true) ∧
        replacement.newHref ≠ replacement.oldHref ∧
        replacement.kind? = some "normalizedRel" ∧
        replacement.newHref.startsWith ".." = false ∧
        (Href.split other.href).query ++ (Href.split other.href).anchor <:+ replacement.newHref := by
  refine ⟨by decide, by decide +kernel, ?_⟩
  exact generate_conservative _ "/" _ "/d/docs/a.md" _ (by decide) (by decide) (by decide)
    (by decide) _ (by decide +kernel)

end Normalize
end Crosslink

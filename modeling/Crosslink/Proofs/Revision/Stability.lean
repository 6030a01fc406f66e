import Crosslink.Files.Store
import Crosslink.Proofs.Href.Kind
import Crosslink.Proofs.Revision.Form

namespace Crosslink
namespace Normalize

/-!
A link that has been written in its canonical form is read again.  What is read is the path
that was written, and it leads down from the directory of the file or, if its first segment is
the name of a docs folder, from the root.  From this follows when a second run has nothing
left to do, and when the target has been kept.
-/

variable {present : Text → Bool} {cwd file href newHref path : Text} {rules : Rules}
variable {strategy : Strategy} {tail : List Text}

/-! ## Where the new link leads -/

theorem place_targetOf (cwd : Text) (rooted : Path.isAbsolute rules.root = true)
    (absolute : Path.isAbsolute file = true) (href : Text) :
    Path.place (targetOf cwd rules file href) =
      Path.follow (Path.place
        (Target.origin rules.folders rules.root file (Href.split href).path))
        (Href.split href).path := by
  rw [targetOf, Target.place_path cwd rooted absolute, Href.withoutAnchor_path]

theorem isAbsolute_targetOf (cwd : Text) (rooted : Path.isAbsolute rules.root = true)
    (absolute : Path.isAbsolute file = true) (href : Text) :
    Path.isAbsolute (targetOf cwd rules file href) = true :=
  Target.isAbsolute_path cwd rooted absolute _

/-- Two targets of links are the same if they are the same place. -/
theorem targetOf_inj {other : Text} (rooted : Path.isAbsolute rules.root = true)
    (absolute : Path.isAbsolute file = true)
    (same : Path.place (targetOf cwd rules file href) =
      Path.place (targetOf cwd rules file other)) :
    targetOf cwd rules file href = targetOf cwd rules file other :=
  Target.path_inj rooted absolute same

/-- A link that begins with the name of a docs folder leads to its concatenation with the
root. -/
theorem targetOf_of_folder
    (folder : rules.folders.contains ((Href.split href).path.before '/') = true) :
    targetOf cwd rules file href = Path.concat [rules.root, (Href.split href).path] := by
  have unanchored := Href.withoutAnchor_path href
  simp only [targetOf, Target.path, unanchored, if_pos folder]

theorem Revised.path_split (revised : Revised present cwd rules file href newHref strategy path) :
    (Href.split newHref).path = (Href.split path).path := by
  rw [revised.keeps]
  exact Href.path_split_append path (Href.isQuery_split href) (Href.isAnchor_split href)

/-- A link whose path has been written as a form that leads down along some names. -/
structure Written (href path : Text) (tail : List Text) : Prop where
  /-- The path leads down along the names. -/
  descends : Descends path tail
  /-- The names are names. -/
  isPlace : Path.IsPlace tail
  /-- The names are plain. -/
  plain : ∀ name ∈ tail, Href.Plain name
  /-- The path does not look as if it climbed. -/
  flat : climbs path = false
  /-- The link begins with the path. -/
  opens : path <+: href
  /-- The path is the path that is read in the link. -/
  read : (Href.split href).path = path

/-- A form that is not empty is written down along names. -/
theorem Revised.written (rooted : Path.isAbsolute rules.root = true)
    (absolute : Path.isAbsolute file = true)
    (plain : ∀ name ∈ Path.place (targetOf cwd rules file href), Href.Plain name)
    (revised : Revised present cwd rules file href newHref strategy path) (nonempty : path ≠ []) :
    ∃ tail, Written newHref path tail ∧ Path.place (targetOf cwd rules file href) =
      Path.place (if climbs (Path.relativeHref cwd (Path.hostDir file)
        (targetOf cwd rules file href)) then rules.root else Path.hostDir file) ++ tail := by
  have targetAbsolute := isAbsolute_targetOf cwd rooted absolute href
  have shape : ∃ tail, Descends path tail ∧ climbs path = false ∧
      Path.place (targetOf cwd rules file href) =
        Path.place (if climbs (Path.relativeHref cwd (Path.hostDir file)
          (targetOf cwd rules file href)) then rules.root else Path.hostDir file) ++ tail := by
    cases climbing : climbs (Path.relativeHref cwd (Path.hostDir file)
      (targetOf cwd rules file href)) with
    | true =>
        have child := child_of_canonical? rooted targetAbsolute climbing revised.form
        exact ⟨[path], descends_singleton path, child.2, child.1⟩
    | false =>
        rcases form_of_not_climbs absolute targetAbsolute plain climbing revised.form with
          ⟨empty, _⟩ | below
        · exact absurd empty nonempty
        · exact below
  rcases shape with ⟨tail, descends, flat, placed⟩
  have tailPlace : Path.IsPlace tail := Path.isPlace_of_below placed
  have tailPlain : ∀ name ∈ tail, Href.Plain name := fun name member =>
    plain name (placed ▸ List.mem_append_right _ member)
  refine ⟨tail, ⟨descends, tailPlace, tailPlain, flat, ?_, ?_⟩, placed⟩
  · rw [revised.keeps, List.append_assoc]
    exact List.prefix_append path _
  · rw [revised.path_split, (descends.plain tailPlain).path_split]

theorem Written.place_targetOf (cwd : Text) (rooted : Path.isAbsolute rules.root = true)
    (absolute : Path.isAbsolute file = true) (written : Written href path tail) :
    Path.place (targetOf cwd rules file href) =
      Path.place (Target.origin rules.folders rules.root file path) ++ tail := by
  rw [Normalize.place_targetOf cwd rooted absolute, written.read,
    written.descends.follow written.isPlace]

/-- A path that begins with the name of a docs folder is read in the root. -/
theorem Written.targetOf_eq_concat (cwd : Text) (written : Written href path tail)
    (folder : rules.folders.contains (path.before '/') = true) :
    targetOf cwd rules file href = Path.concat [rules.root, path] := by
  rw [← written.read]
  exact targetOf_of_folder (written.read.symm ▸ folder)

theorem Written.settled_of_below (rooted : Path.isAbsolute rules.root = true)
    (absolute : Path.isAbsolute file = true) (written : Written href path tail)
    (below : Path.place (targetOf cwd rules file href) =
      Path.place (Path.hostDir file) ++ tail) : Settled present cwd rules file href := by
  right
  constructor
  · rw [written.read]
    exact written.descends.nonempty written.isPlace
  · intro _ strategy other form
    have noBackslash := (written.descends.plain written.plain).noBackslash
    rw [canonical?_of_descends absolute (isAbsolute_targetOf cwd rooted absolute href)
      written.descends below noBackslash written.flat written.opens] at form
    cases form
    exact written.read.symm

/-- A path that is the form of its target as seen from the file leads from the directory of the
file to its target. -/
theorem Written.below_of_form (rooted : Path.isAbsolute rules.root = true)
    (absolute : Path.isAbsolute file = true) (written : Written href path tail)
    (plain : ∀ name ∈ Path.place (targetOf cwd rules file href), Href.Plain name)
    (flat : climbs (Path.relativeHref cwd (Path.hostDir file)
      (targetOf cwd rules file href)) = false)
    (form : canonical? cwd rules.root file href (targetOf cwd rules file href) =
      some (strategy, path)) :
    Path.place (targetOf cwd rules file href) = Path.place (Path.hostDir file) ++ tail := by
  have targetAbsolute := isAbsolute_targetOf cwd rooted absolute href
  rcases form_of_not_climbs absolute targetAbsolute plain flat form with
    ⟨empty, _⟩ | ⟨names, descends, _, below⟩
  · exact absurd empty (written.descends.nonempty written.isPlace)
  · have namesPlace : Path.IsPlace names := Path.isPlace_of_below below
    have led := descends.follow namesPlace (Path.place (Path.hostDir file))
    rw [written.descends.follow written.isPlace] at led
    rw [below, led]

/-- A path that is read in the root is the only form of a target that cannot be written from the
directory of the file. -/
theorem Written.form_of_climbs (rooted : Path.isAbsolute rules.root = true)
    (absolute : Path.isAbsolute file = true) (written : Written href path tail)
    (folder : rules.folders.contains (path.before '/') = true)
    (climbing : climbs (Path.relativeHref cwd (Path.hostDir file)
      (targetOf cwd rules file href)) = true) {other : Text}
    (form : canonical? cwd rules.root file href (targetOf cwd rules file href) =
      some (strategy, other)) : other = path := by
  have targetAbsolute := isAbsolute_targetOf cwd rooted absolute href
  have child := (child_of_canonical? rooted targetAbsolute climbing form).1
  rw [written.place_targetOf cwd rooted absolute, Target.origin, if_pos folder] at child
  have single : tail = [other] := List.append_cancel_left child
  rcases written.descends with ⟨nowhere, _⟩ | ⟨_, joined⟩
  · rw [nowhere] at single
    cases single
  · rw [joined, single, Text.join_singleton]

/-- Read in the root, the path is the form of its target only if that target cannot be
written from the directory of the file, or lies below it along the same names. -/
theorem Written.settled_iff_of_folder (rooted : Path.isAbsolute rules.root = true)
    (absolute : Path.isAbsolute file = true) (written : Written href path tail)
    (plain : ∀ name ∈ Path.place (targetOf cwd rules file href), Href.Plain name)
    (folder : rules.folders.contains (path.before '/') = true)
    (elsewhere : Path.place (targetOf cwd rules file href) ≠
      Path.place (Path.hostDir file) ++ tail) :
    Settled present cwd rules file href ↔ Href.isSkipped rules.exclusions href = true ∨
      ¬ (present (targetOf cwd rules file href) = true ∧
        climbs (Path.relativeHref cwd (Path.hostDir file)
          (targetOf cwd rules file href)) = false) := by
  constructor
  · rintro (skipped | ⟨_, settled⟩)
    · exact Or.inl skipped
    · right
      rintro ⟨found, flat⟩
      obtain ⟨other, form⟩ :
          ∃ other, canonical? cwd rules.root file href (targetOf cwd rules file href) =
            some (.relative, other) := exists_canonical?_of_not_climbs flat
      have same : other = path := (settled found _ _ form).trans written.read
      exact elsewhere (written.below_of_form rooted absolute plain flat (same ▸ form))
  · rintro (skipped | hidden)
    · exact Or.inl skipped
    · right
      constructor
      · rw [written.read]
        exact written.descends.nonempty written.isPlace
      · intro found strategy other form
        have climbing : climbs (Path.relativeHref cwd (Path.hostDir file)
            (targetOf cwd rules file href)) = true := by
          by_contra flat
          exact hidden ⟨found, Bool.eq_false_iff.mpr flat⟩
        rw [written.read]
        exact written.form_of_climbs rooted absolute folder climbing form

/-! ## A second run -/

/-- The link leads to the directory of its file without being written with `./`, so that
nothing is left of it but its query and its anchor, and it has a query. -/
def Emptied (cwd file href target : Text) : Prop :=
  Path.relativeHref cwd (Path.hostDir file) target = ['.', '/'] ∧
    href.startsWith ['.', '/'] = false ∧ (Href.split href).query ≠ []

/-- The new path begins with the name of a docs folder.  Read in the root it leads to
something else, which is there and has a form as seen from the file. -/
def Misread (present : Text → Bool) (cwd : Text) (rules : Rules) (file target path : Text) :
    Prop :=
  rules.folders.contains (path.before '/') = true ∧
    Path.concat [rules.root, path] ≠ target ∧
    present (Path.concat [rules.root, path]) = true ∧
    climbs (Path.relativeHref cwd (Path.hostDir file) (Path.concat [rules.root, path])) = false

/-- A link that has lost its path is left as it is only if no revision may touch it. -/
theorem Revised.settled_iff_of_empty
    (revised : Revised present cwd rules file href newHref strategy []) :
    Settled present cwd rules file newHref ↔ Href.isSkipped rules.exclusions newHref = true := by
  have nothing : (Href.split newHref).path = [] := by
    rw [revised.path_split]
    rfl
  constructor
  · rintro (skipped | ⟨nonempty, _⟩)
    · exact skipped
    · exact absurd nothing nonempty
  · intro skipped
    exact Or.inl skipped

/-- No revision touches a link of which only an anchor is left. -/
theorem Revised.isSkipped_of_empty
    (revised : Revised present cwd rules file href newHref strategy [])
    (queryless : (Href.split href).query = []) :
    Href.isSkipped rules.exclusions newHref = true := by
  have rest := revised.keeps
  rw [List.nil_append, queryless, List.nil_append] at rest
  rcases Href.isAnchor_split href with none | ⟨name, some⟩
  · rw [rest, none]
    exact Href.isSkipped_nil rules.exclusions
  · rw [rest, some]
    exact Href.isSkipped_hash rules.exclusions name

/-- A link that is read in the root.  It is misread exactly if what it leads to is there and can be
written from the directory of the file, provided that this is not the new link itself. -/
theorem Written.misread_iff (written : Written newHref path tail)
    (folder : rules.folders.contains (path.before '/') = true)
    (placed : Path.place (targetOf cwd rules file href) =
      Path.place (if climbs (Path.relativeHref cwd (Path.hostDir file)
        (targetOf cwd rules file href)) then rules.root else Path.hostDir file) ++ tail)
    (elsewhere : Path.place (targetOf cwd rules file newHref) ≠
      Path.place (Path.hostDir file) ++ tail) :
    Misread present cwd rules file (targetOf cwd rules file href) path ↔
      present (targetOf cwd rules file newHref) = true ∧
        climbs (Path.relativeHref cwd (Path.hostDir file)
          (targetOf cwd rules file newHref)) = false := by
  rw [Misread, ← written.targetOf_eq_concat cwd folder]
  constructor
  · rintro ⟨_, _, found, flat⟩
    exact ⟨found, flat⟩
  · rintro ⟨found, flat⟩
    refine ⟨folder, ?_, found, flat⟩
    intro same
    rw [same] at flat elsewhere
    rw [flat] at placed
    exact elsewhere placed

/-- A link that leads below the directory of the file along its names is not misread, even if it is
read in the root. -/
theorem Written.not_misread_of_below (rooted : Path.isAbsolute rules.root = true)
    (absolute : Path.isAbsolute file = true) (written : Written newHref path tail)
    (placed : Path.place (targetOf cwd rules file href) =
      Path.place (if climbs (Path.relativeHref cwd (Path.hostDir file)
        (targetOf cwd rules file href)) then rules.root else Path.hostDir file) ++ tail)
    (below : Path.place (targetOf cwd rules file newHref) =
      Path.place (Path.hostDir file) ++ tail) :
    ¬ Misread present cwd rules file (targetOf cwd rules file href) path := by
  rintro ⟨folder, different, _⟩
  have led := written.place_targetOf cwd rooted absolute
  rw [Target.origin, if_pos folder] at led
  apply different
  rw [← written.targetOf_eq_concat cwd folder]
  apply targetOf_inj rooted absolute
  rw [placed]
  split
  · exact led
  · exact below

/-- A link that has been written down along names is left as it is unless it is misread. -/
theorem Written.settled_iff_not_misread (rooted : Path.isAbsolute rules.root = true)
    (absolute : Path.isAbsolute file = true)
    (plainRoot : ∀ name ∈ Path.place rules.root, Href.Plain name)
    (written : Written newHref path tail)
    (placed : Path.place (targetOf cwd rules file href) =
      Path.place (if climbs (Path.relativeHref cwd (Path.hostDir file)
        (targetOf cwd rules file href)) then rules.root else Path.hostDir file) ++ tail) :
    Settled present cwd rules file newHref ↔
      Href.isSkipped rules.exclusions newHref = true ∨
        ¬ Misread present cwd rules file (targetOf cwd rules file href) path := by
  have led := written.place_targetOf cwd rooted absolute
  by_cases below : Path.place (targetOf cwd rules file newHref) =
      Path.place (Path.hostDir file) ++ tail
  · have settled : Settled present cwd rules file newHref :=
      written.settled_of_below rooted absolute below
    have kept : ¬ Misread present cwd rules file (targetOf cwd rules file href) path :=
      written.not_misread_of_below rooted absolute placed below
    exact iff_of_true settled (Or.inr kept)
  · -- Only a path that is read in the root can lead elsewhere.
    have folder : rules.folders.contains (path.before '/') = true := by
      by_contra notFolder
      rw [Target.origin, if_neg notFolder] at led
      exact below led
    have plain : ∀ name ∈ Path.place (targetOf cwd rules file newHref), Href.Plain name := by
      intro name member
      rw [led, Target.origin, if_pos folder] at member
      rcases List.mem_append.mp member with inRoot | inTail
      · exact plainRoot name inRoot
      · exact written.plain name inTail
    rw [written.settled_iff_of_folder rooted absolute plain folder below,
      written.misread_iff folder placed below]

/-- When the names of the root and of the target are plain, a revised link is settled unless it
has been emptied or misread; one that no revision may touch is settled in any case. -/
theorem Revised.settled_iff_of_plain (rooted : Path.isAbsolute rules.root = true)
    (absolute : Path.isAbsolute file = true)
    (plainRoot : ∀ name ∈ Path.place rules.root, Href.Plain name)
    (plain : ∀ name ∈ Path.place (targetOf cwd rules file href), Href.Plain name)
    (revised : Revised present cwd rules file href newHref strategy path) :
    Settled present cwd rules file newHref ↔
      Href.isSkipped rules.exclusions newHref = true ∨
        ¬ (Emptied cwd file href (targetOf cwd rules file href) ∨
          Misread present cwd rules file (targetOf cwd rules file href)
            (Href.split newHref).path) := by
  have emptiness := form_eq_nil_iff rooted absolute (isAbsolute_targetOf cwd rooted absolute href)
    plain revised.form
  by_cases empty : path = []
  · rcases emptiness.mp empty with ⟨here, undotted⟩
    subst empty
    rw [revised.settled_iff_of_empty]
    constructor
    · intro skipped
      exact Or.inl skipped
    · rintro (skipped | kept)
      · exact skipped
      · apply revised.isSkipped_of_empty
        by_contra query
        exact kept (Or.inl ⟨here, undotted, query⟩)
  · rcases revised.written rooted absolute plain empty with ⟨tail, written, placed⟩
    have kept : ¬ Emptied cwd file href (targetOf cwd rules file href) := by
      rintro ⟨here, undotted, _⟩
      exact empty (emptiness.mpr ⟨here, undotted⟩)
    rw [written.settled_iff_not_misread rooted absolute plainRoot placed, written.read]
    simp only [kept, false_or]

/-- Running over a revised link again.  The second run comes to its end without a replacement
exactly if the new link is settled; and when the names of the root and of the target are plain,
this is the case exactly if no revision may touch the new link or it has neither been emptied
nor misread. -/
theorem generate_again (store : Store) (cwd : Text) (rules : Rules) (file : Text) (link : Link)
    (replacement : Replacement) (rooted : Path.isAbsolute rules.root = true)
    (absolute : Path.isAbsolute file = true)
    (emitted : replacement ∈
      (generate (Files.present store) cwd rules file [link]).replacements) :
    ((generate (Files.present store) cwd rules file
        [{ link with href := replacement.newHref }]).result = .ok ([], []) ↔
      Settled store.present cwd rules file replacement.newHref) ∧
    ((∀ name ∈ Path.place rules.root, Href.Plain name) →
      (∀ name ∈ Path.place (targetOf cwd rules file link.href), Href.Plain name) →
      ((generate (Files.present store) cwd rules file
          [{ link with href := replacement.newHref }]).result = .ok ([], []) ↔
        Href.isSkipped rules.exclusions replacement.newHref = true ∨
          ¬ (Emptied cwd file link.href (targetOf cwd rules file link.href) ∨
            Misread store.present cwd rules file (targetOf cwd rules file link.href)
              (Href.split replacement.newHref).path))) := by
  have settles : (generate (Files.present store) cwd rules file
      [{ link with href := replacement.newHref }]).result = .ok ([], []) ↔
      Settled store.present cwd rules file replacement.newHref :=
    generate_eq_nil_iff_settled
  constructor
  · exact settles
  · intro plainRoot plain
    rcases revised_of_mem_generate emitted with ⟨strategy, path, revised⟩
    rw [settles]
    exact revised.settled_iff_of_plain rooted absolute plainRoot plain

/-- A link that lost its `./` to a folder of its own name: the second run leads it to another
file. -/
theorem generate_again_misread :
    (generate (Files.present (Store.ofFiles "/"
        [("/dataset/docs/docs/b.md", []), ("/dataset/docs/b.md", [])] [])) "/"
      { folders := ["docs"], root := "/dataset", exclusions := [] } "/dataset/docs/a.md"
      [{ href := "docs/b.md", text := [], line := 1, start? := none, stop? := none }]).result ≠
        .ok ([], []) := by
  intro quiet
  have again := (generate_again (Store.ofFiles "/"
      [("/dataset/docs/docs/b.md", []), ("/dataset/docs/b.md", [])] [])
    "/" { folders := ["docs"], root := "/dataset", exclusions := [] } "/dataset/docs/a.md"
    { href := "./docs/b.md", text := [], line := 1, start? := none, stop? := none }
    { line := 1, oldHref := "./docs/b.md", newHref := "docs/b.md", start? := none, stop? := none
      kind? := some Replacement.normalizedRel }
    (by decide) (by decide) (by decide +kernel)).2 (by decide +kernel) (by decide +kernel)
  rcases again.mp quiet with skipped | kept
  · revert skipped
    decide +kernel
  · apply kept
    right
    exact ⟨by decide +kernel, by decide +kernel, by decide +kernel, by decide +kernel⟩

end Normalize
end Crosslink

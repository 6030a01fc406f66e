import Crosslink.Proofs.Revision.Stability

namespace Crosslink
namespace Normalize

/-!
When a revised link still leads to its target.  For a target in or below the directory of the
file the new path is read in one of two ways.  Read in the root it has to lead there by
chance; read in the directory of the file it leads to the target exactly if the relative path
of the target comes back letter for letter and does not look as if it climbed.
-/

variable {present : Text → Bool} {cwd file href newHref path : Text} {rules : Rules}
variable {strategy : Strategy} {tail : List Text}

/-- Names look as if they climbed exactly if the first of them does. -/
theorem climbs_join (first : Text) (rest : List Text) :
    climbs (Text.join ['/'] (first :: rest)) = climbs first := by
  cases rest with
  | nil => rw [Text.join_singleton]
  | cons second more =>
      rw [Text.join_cons_cons, List.append_assoc, List.singleton_append]
      cases first with
      | nil => rfl
      | cons c behind =>
          cases behind with
          | nil => simp [climbs, Text.startsWith, List.isPrefixOf]
          | cons d further => rfl

/-- A link to the directory of its file keeps a path only if it was written with `./`. -/
theorem Revised.dotted_of_here (rooted : Path.isAbsolute rules.root = true)
    (absolute : Path.isAbsolute file = true)
    (revised : Revised present cwd rules file href newHref strategy path)
    (kept : (Href.split newHref).path ≠ [])
    (here : Path.place (targetOf cwd rules file href) = Path.place (Path.hostDir file)) :
    href.startsWith ['.', '/'] = true := by
  have form := revised.form
  rw [canonical?_of_here absolute (isAbsolute_targetOf cwd rooted absolute href) here] at form
  by_contra undotted
  rw [if_neg undotted] at form
  cases form
  apply kept
  rw [revised.path_split]
  rfl

/-- Read in the directory of the file, a new path leads to the target only if the names that
lead down to the target are plain and do not look as if they climbed. -/
theorem Revised.plain_of_kept (rooted : Path.isAbsolute rules.root = true)
    (absolute : Path.isAbsolute file = true)
    (revised : Revised present cwd rules file href newHref strategy path)
    (below : Path.place (targetOf cwd rules file href) = Path.place (Path.hostDir file) ++ tail)
    (kept : Path.follow (Path.place (Path.hostDir file)) (Href.split newHref).path =
      Path.place (Path.hostDir file) ++ tail) :
    (∀ name ∈ tail, Href.Plain name) ∧ climbs (Text.join ['/'] tail) = false := by
  have opens : (Href.split newHref).path <+: path := by
    rw [revised.path_split]
    exact (List.takeWhile_prefix _).trans (List.takeWhile_prefix _)
  have plainPath : Href.Plain (Href.split newHref).path := by
    rw [revised.path_split]
    exact Href.plain_path (backslash_not_mem_canonical? revised.form)
  have plain : ∀ name ∈ tail, Href.Plain name := fun name member =>
    plainPath.of_mem_splitOn (Path.mem_splitOn_of_follow_below kept member)
  refine ⟨plain, ?_⟩
  have targetAbsolute := isAbsolute_targetOf cwd rooted absolute href
  cases tail with
  | nil => rfl
  | cons first rest =>
      have written := Path.relativeHref_of_below cwd (Path.isAbsolute_hostDir absolute)
        targetAbsolute below (List.cons_ne_nil first rest)
      rw [Text.replaceChar_of_not_mem _ (Href.plain_join plain).noBackslash] at written
      apply Bool.eq_false_iff.mpr
      intro climbing
      have child := child_of_canonical? rooted targetAbsolute (written.symm ▸ climbing) revised.form
      have whole : '/' ∉ path :=
        (Path.isPlace_of_below child.1 path List.mem_cons_self).whole
      have single : (Href.split newHref).path.splitOn '/' = [(Href.split newHref).path] :=
        Text.splitOn_of_not_mem fun held => whole (opens.mem held)
      have same : first = (Href.split newHref).path := by
        have member := Path.mem_splitOn_of_follow_below kept (List.mem_cons_self (a := first))
        rw [single] at member
        exact List.mem_singleton.mp member
      rw [climbs_join, climbs, Text.startsWith_iff, same] at climbing
      have climbsAgain := Text.startsWith_iff.mpr (climbing.trans opens)
      rw [← climbs, child.2] at climbsAgain
      cases climbsAgain

/-- Written along plain names that lead down to the target, a link leads to the target. -/
theorem Revised.kept_of_plain (rooted : Path.isAbsolute rules.root = true)
    (absolute : Path.isAbsolute file = true)
    (revised : Revised present cwd rules file href newHref strategy path)
    (below : Path.place (targetOf cwd rules file href) = Path.place (Path.hostDir file) ++ tail)
    (plain : ∀ name ∈ tail, Href.Plain name) (flat : climbs (Text.join ['/'] tail) = false)
    (dotted : tail = [] → href.startsWith ['.', '/'] = true) :
    (Href.split newHref).path ≠ [] ∧
      Path.follow (Path.place (Path.hostDir file)) (Href.split newHref).path =
        Path.place (Path.hostDir file) ++ tail := by
  have targetAbsolute := isAbsolute_targetOf cwd rooted absolute href
  have tailPlace : Path.IsPlace tail := Path.isPlace_of_below below
  have form := revised.form
  have descends : Descends path tail := by
    by_cases empty : tail = []
    · have here := below
      rw [empty, List.append_nil] at here
      rw [canonical?_of_here absolute targetAbsolute here, if_pos (dotted empty)] at form
      cases form
      exact Or.inl ⟨empty, rfl⟩
    · rw [canonical?_of_below absolute targetAbsolute below empty
        (Href.plain_join plain).noBackslash flat] at form
      cases form
      exact Or.inr ⟨empty, rfl⟩
  have read : (Href.split newHref).path = path := by
    rw [revised.path_split]
    exact (descends.plain plain).path_split
  rw [read]
  exact ⟨descends.nonempty tailPlace, descends.follow tailPlace _⟩

/-- The relative path of a target in or below a directory comes back letter for letter exactly
if the names do that lead down to the target. -/
theorem relative_iff_of_below {base target : Text} (cwd : Text)
    (baseAbsolute : Path.isAbsolute base = true) (targetAbsolute : Path.isAbsolute target = true)
    (below : Path.place target = Path.place base ++ tail) :
    (Href.Plain (Path.relative cwd base target) ∧ climbs (Path.relative cwd base target) = false) ↔
      (∀ name ∈ tail, Href.Plain name) ∧ climbs (Text.join ['/'] tail) = false := by
  by_cases empty : tail = []
  · have here := (Path.relative_eq_here_iff cwd baseAbsolute targetAbsolute below).mpr empty
    rw [here, empty]
    constructor
    · intro _
      exact ⟨fun _ member => absurd member List.not_mem_nil, rfl⟩
    · intro _
      exact ⟨by decide, rfl⟩
  · rw [Path.relative_of_below cwd baseAbsolute targetAbsolute below empty]
    constructor
    · rintro ⟨plain, flat⟩
      exact ⟨Href.plain_of_join plain, flat⟩
    · rintro ⟨plain, flat⟩
      exact ⟨Href.plain_join plain, flat⟩

/-- When a target in or below the directory of the file is kept.  The new path is not empty and
leads to the target exactly if a link to the directory itself was written with `./` and the
new path is read right: in the root by leading to the target there, in the directory of the
file by being spelled as the relative path of the target. -/
theorem generate_keeps_target (store : Store) (cwd : Text) (rules : Rules) (file : Text)
    (link : Link) (replacement : Replacement) (rooted : Path.isAbsolute rules.root = true)
    (absolute : Path.isAbsolute file = true)
    (emitted : replacement ∈
      (generate (Files.present store) cwd rules file [link]).replacements)
    (inTree : Path.place (Path.hostDir file) <+:
      Path.place (targetOf cwd rules file link.href)) :
    ((Href.split replacement.newHref).path ≠ [] ∧
        Target.path? cwd rules.folders rules.root file (Href.split replacement.newHref).path =
          .ok (targetOf cwd rules file link.href)) ↔
      (Path.relative cwd (Path.hostDir file) (targetOf cwd rules file link.href) = Path.here →
        link.href.startsWith ['.', '/'] = true) ∧
      (if rules.folders.contains ((Href.split replacement.newHref).path.before '/') = true then
        (Href.split replacement.newHref).path ≠ [] ∧
          Path.concat [rules.root, (Href.split replacement.newHref).path] =
            targetOf cwd rules file link.href
      else
        Href.Plain (Path.relative cwd (Path.hostDir file) (targetOf cwd rules file link.href)) ∧
          climbs (Path.relative cwd (Path.hostDir file) (targetOf cwd rules file link.href)) =
            false) := by
  rcases revised_of_mem_generate emitted with ⟨strategy, path, revised⟩
  rcases inTree with ⟨tail, joined⟩
  have hostAbsolute := Path.isAbsolute_hostDir absolute
  have targetAbsolute := isAbsolute_targetOf cwd rooted absolute link.href
  have here := Path.relative_eq_here_iff cwd hostAbsolute targetAbsolute joined.symm
  have leads : (Href.split replacement.newHref).path ≠ [] →
      (Target.path? cwd rules.folders rules.root file (Href.split replacement.newHref).path =
          .ok (targetOf cwd rules file link.href) ↔
        targetOf cwd rules file replacement.newHref = targetOf cwd rules file link.href) := by
    intro nonempty
    have some : ¬ (Href.split replacement.newHref).path.isEmpty = true :=
      fun empty => nonempty (List.isEmpty_iff.mp empty)
    rw [Target.path?, if_neg some]
    exact ⟨fun same => Except.ok.inj same, fun same => congrArg Except.ok same⟩
  have dotted : (Href.split replacement.newHref).path ≠ [] → tail = [] →
      link.href.startsWith ['.', '/'] = true := by
    intro nonempty empty
    rw [empty, List.append_nil] at joined
    exact revised.dotted_of_here rooted absolute nonempty joined.symm
  rw [here, and_congr_right leads]
  by_cases folder : rules.folders.contains
      ((Href.split replacement.newHref).path.before '/') = true
  · rw [if_pos folder, targetOf_of_folder folder]
    constructor
    · rintro ⟨nonempty, same⟩
      exact ⟨dotted nonempty, nonempty, same⟩
    · rintro ⟨_, nonempty, same⟩
      exact ⟨nonempty, same⟩
  · rw [if_neg folder, relative_iff_of_below cwd hostAbsolute targetAbsolute joined.symm]
    have led := place_targetOf cwd rooted absolute replacement.newHref
    rw [Target.origin, if_neg folder] at led
    constructor
    · rintro ⟨nonempty, same⟩
      refine ⟨dotted nonempty, revised.plain_of_kept rooted absolute joined.symm ?_⟩
      rw [← led, same, joined]
    · rintro ⟨written, plain, flat⟩
      have kept := revised.kept_of_plain rooted absolute joined.symm plain flat written
      refine ⟨kept.1, targetOf_inj rooted absolute ?_⟩
      rw [led, kept.2, joined]

/-- A link that lost its `./` to a folder of its own name no longer leads to its target. -/
theorem generate_loses_target :
    Target.path? "/" ["docs"] "/dataset" "/dataset/docs/a.md" "docs/b.md" ≠
      .ok "/dataset/docs/docs/b.md" := by
  intro same
  have kept := generate_keeps_target (Store.ofFiles "/" [("/dataset/docs/docs/b.md", [])] []) "/"
    { folders := ["docs"], root := "/dataset", exclusions := [] } "/dataset/docs/a.md"
    { href := "./docs/b.md", text := [], line := 1, start? := none, stop? := none }
    { line := 1, oldHref := "./docs/b.md", newHref := "docs/b.md", start? := none, stop? := none
      kind? := some Replacement.normalizedRel }
    (by decide) (by decide) (by decide +kernel) (by decide +kernel)
  have reading := (kept.mp ⟨by decide +kernel, by
    rw [show (Href.split "docs/b.md").path = "docs/b.md" by decide +kernel, same]
    decide +kernel⟩).2
  revert reading
  decide +kernel

end Normalize
end Crosslink

import Crosslink.Proofs.Path.Route

namespace Crosslink
namespace Path

/-!
Normal forms.  A path is as absolute as its normal form, an absolute path lies where its
normal form lies, and a normal form that begins with one slash is the spelling of its place.
A name that is read inside a directory lies right below it.
-/

/-! ## What remains of components -/

/-- One more component leaves names that are neither empty nor cut by a slash. -/
theorem push_plain (rooted : Bool) {kept : List Text} {name : Text}
    (plain : ∀ other ∈ kept, other ≠ [] ∧ '/' ∉ other) (whole : '/' ∉ name) :
    ∀ other ∈ push rooted kept name, other ≠ [] ∧ '/' ∉ other := by
  have upPlain : up ≠ [] ∧ '/' ∉ up := by decide
  unfold push
  split
  · exact plain
  · next unremarkable =>
      have named : name ≠ [] ∧ '/' ∉ name := ⟨fun empty => unremarkable (Or.inl empty), whole⟩
      split
      · cases kept with
        | nil =>
            cases rooted with
            | true => exact plain
            | false =>
                intro other member
                exact List.mem_singleton.mp member ▸ upPlain
        | cons top rest =>
            have shorter : ∀ other ∈ rest, other ≠ [] ∧ '/' ∉ other :=
              fun other member => plain other (List.mem_cons_of_mem top member)
            dsimp only
            split
            · intro other member
              rcases List.mem_cons.mp member with same | earlier
              · exact same ▸ upPlain
              · exact plain other earlier
            · exact shorter
      · intro other member
        rcases List.mem_cons.mp member with same | earlier
        · exact same ▸ named
        · exact plain other earlier

theorem plain_of_mem_settle {rooted : Bool} {path name : Text}
    (member : name ∈ settle rooted (path.splitOn '/')) : name ≠ [] ∧ '/' ∉ name := by
  suffices general : ∀ (components kept : List Text), (∀ other ∈ components, '/' ∉ other) →
      (∀ other ∈ kept, other ≠ [] ∧ '/' ∉ other) →
      ∀ other ∈ components.foldl (push rooted) kept, other ≠ [] ∧ '/' ∉ other from
    general (path.splitOn '/') [] (fun _ component => Text.not_mem_of_mem_splitOn component)
      (fun _ impossible => absurd impossible List.not_mem_nil) name (List.mem_reverse.mp member)
  intro components
  induction components with
  | nil => exact fun _ _ plain => plain
  | cons first rest inductionHypothesis =>
      intro kept whole plain
      exact inductionHypothesis _ (fun other later => whole other (List.mem_cons_of_mem first later))
        (push_plain rooted plain (whole first List.mem_cons_self))

/-! ## Roots -/

theorem rootSlashes_of_not_isAbsolute {path : Text} (relative : isAbsolute path = false) :
    rootSlashes path = 0 := by
  unfold rootSlashes
  split
  · cases relative
  · cases relative
  · cases relative
  · rfl

theorem rootSlashes_le_two (path : Text) : rootSlashes path ≤ 2 := by
  unfold rootSlashes
  split <;> decide

/-- Names that are neither empty nor cut by a slash do not make an absolute path. -/
theorem isAbsolute_render_zero {names : List Text}
    (plain : ∀ name ∈ names, name ≠ [] ∧ '/' ∉ name) : isAbsolute (render 0 names) = false := by
  cases names with
  | nil => rfl
  | cons first rest =>
      rcases plain first List.mem_cons_self with ⟨nonempty, whole⟩
      have begins : ∃ more, Text.join ['/'] (first :: rest) = first ++ more := by
        cases rest with
        | nil => exact ⟨[], (Text.join_singleton _ _).trans (List.append_nil first).symm⟩
        | cons second more =>
            exact ⟨_, (Text.join_cons_cons _ _ _ _).trans (List.append_assoc _ _ _)⟩
      rcases begins with ⟨more, begins⟩
      rw [render_zero_of_ne_nil (List.cons_ne_nil first rest) fun name member =>
        (plain name member).1, begins]
      refine Bool.eq_false_iff.mpr fun absolute => ?_
      rcases isAbsolute_iff.mp absolute with ⟨tail, joined⟩
      cases first with
      | nil => exact nonempty rfl
      | cons c name =>
          rw [List.cons_append] at joined
          exact whole ((List.cons.inj joined).1 ▸ List.mem_cons_self)

theorem isAbsolute_of_normalize {path : Text} (absolute : isAbsolute (normalize path) = true) :
    isAbsolute path = true := by
  by_contra notAbsolute
  rw [normalize, rootSlashes_of_not_isAbsolute (Bool.eq_false_iff.mpr notAbsolute),
    isAbsolute_render_zero fun name member => plain_of_mem_settle member] at absolute
  cases absolute

/-! ## Places of normal forms -/

@[simp] theorem place_cons_slash (path : Text) : place ('/' :: path) = place path := by
  have led := follow_append_cons [] [] path
  rw [follow_nil] at led
  exact led

theorem place_render_succ {names : List Text} (isPlace : IsPlace names) (slashes : Nat) :
    place (render (slashes + 1) names) = names := by
  have shape : render (slashes + 1) names =
      List.replicate (slashes + 1) '/' ++ Text.join ['/'] names := rfl
  rw [shape]
  induction slashes with
  | zero => exact place_spell isPlace
  | succ slashes inductionHypothesis =>
      rw [List.replicate_succ, List.cons_append, place_cons_slash]
      exact inductionHypothesis rfl

theorem normalize_eq_render {path : Text} (absolute : isAbsolute path = true) :
    ∃ slashes, rootSlashes path = slashes + 1 ∧
      normalize path = render (slashes + 1) (place path) := by
  rcases rootSlashes_of_isAbsolute absolute with ⟨slashes, counted⟩
  refine ⟨slashes, counted, ?_⟩
  rw [normalize, counted]
  rfl

/-- A path that is read inside an absolute directory is absolute in its normal form. -/
theorem isAbsolute_absolute {cwd : Text} (rooted : isAbsolute cwd = true) (path : Text) :
    isAbsolute (Path.absolute cwd path) = true := by
  rcases normalize_eq_render (isAbsolute_under rooted path) with ⟨slashes, _, rendered⟩
  rw [Path.absolute, rendered]
  rfl

/-- An absolute path lies where its normal form lies. -/
theorem place_normalize {path : Text} (absolute : isAbsolute path = true) :
    place (normalize path) = place path := by
  rcases normalize_eq_render absolute with ⟨slashes, _, rendered⟩
  rw [rendered, place_render_succ (place_isPlace path)]

/-- A normal form that begins with one slash is spelled by its place. -/
theorem normalize_eq_spell {path : Text} (absolute : isAbsolute (normalize path) = true)
    (single : (normalize path).startsWith ['/', '/'] = false) :
    normalize path = spell (place (normalize path)) := by
  have pathAbsolute := isAbsolute_of_normalize absolute
  rw [place_normalize pathAbsolute]
  rcases normalize_eq_render pathAbsolute with ⟨slashes, counted, rendered⟩
  cases slashes with
  | zero => exact rendered
  | succ slashes =>
      rw [rendered] at single
      cases single

/-! ## Names read inside a directory -/

/-- A directory with a slash behind it, unless there is one or nothing to put it behind. -/
def slashed (directory : Text) : Text :=
  if directory.isEmpty || directory.endsWith ['/'] then directory else directory ++ ['/']

theorem under_eq_append (directory : Text) {path : Text} (relative : isAbsolute path = false) :
    under directory path = slashed directory ++ path := by
  rw [under, relative, slashed, if_neg Bool.false_ne_true]
  split
  · rfl
  · rw [List.append_assoc, List.singleton_append]

theorem slashed_concat (start : Text) (c : Char) :
    slashed (start ++ [c]) = if c = '/' then start ++ [c] else start ++ [c] ++ ['/'] := by
  have unlike : (start ++ [c]).isEmpty = false := by
    cases start <;> rfl
  have last : Text.endsWith (start ++ [c]) ['/'] = true ↔ c = '/' := by
    rw [Text.endsWith, List.isSuffixOf_iff_suffix]
    constructor
    · rintro ⟨front, joined⟩
      exact (List.singleton_inj.mp (List.append_inj' joined rfl).2).symm
    · intro slash
      exact ⟨start, by rw [slash]⟩
  rw [slashed, unlike, Bool.false_or]
  exact if_congr last rfl rfl

@[simp] theorem slashed_slashed (directory : Text) : slashed (slashed directory) = slashed directory := by
  rcases List.eq_nil_or_concat directory with rfl | ⟨start, c, rfl⟩
  · rfl
  · rw [List.concat_eq_append, slashed_concat]
    split
    · next slash => rw [slashed_concat, if_pos slash]
    · rw [slashed_concat, if_pos rfl]

theorem slashed_append (first second : Text) :
    slashed (slashed first ++ second) = slashed first ++ slashed second := by
  rcases List.eq_nil_or_concat second with rfl | ⟨start, c, rfl⟩
  · rw [List.append_nil, slashed_slashed]
    exact (List.append_nil _).symm
  · rw [List.concat_eq_append, ← List.append_assoc, slashed_concat, slashed_concat]
    split
    · rw [List.append_assoc]
    · rw [List.append_assoc, List.append_assoc, List.append_assoc]

/-- A path that does not begin with a slash does not get one in front. -/
theorem isAbsolute_slashed_append {directory path : Text} (relative : isAbsolute directory = false)
    (also : isAbsolute path = false) : isAbsolute (slashed directory ++ path) = false := by
  cases directory with
  | nil => exact also
  | cons c rest =>
      unfold slashed
      split
      · exact relative
      · exact relative

/-- A name read inside a directory that is itself read inside another. -/
theorem under_under (cwd directory : Text) {name : Text} (relative : isAbsolute name = false) :
    under cwd (under directory name) = under (under cwd directory) name := by
  cases rooted : isAbsolute directory with
  | true =>
      rw [under, if_pos (isAbsolute_under rooted name), under.eq_def cwd directory, if_pos rooted]
  | false =>
      rw [under_eq_append directory relative,
        under_eq_append cwd (isAbsolute_slashed_append rooted relative),
        under_eq_append cwd rooted, under_eq_append _ relative, slashed_append,
        List.append_assoc]

theorem apply_dropEndWhile {α : Type} (f : Text → α) (ignores : ∀ start, f (start ++ ['/']) = f start)
    (path : Text) : f (Text.dropEndWhile (· == '/') path) = f path := by
  induction path using List.reverseRecOn with
  | nil => rfl
  | append_singleton start c inductionHypothesis =>
      have dropped : Text.dropEndWhile (· == '/') (start ++ [c]) =
          if (c == '/') = true then Text.dropEndWhile (· == '/') start else start ++ [c] :=
        List.rdropWhile_concat _ _ _
      rw [dropped]
      split
      · next slash => rw [inductionHypothesis, beq_iff_eq.mp slash, ignores]
      · rfl

/-- The slashes at the end of a path do not change where it leads. -/
@[simp] theorem place_dropEndWhile (path : Text) :
    place (Text.dropEndWhile (· == '/') path) = place path := by
  refine apply_dropEndWhile place (fun start => ?_) path
  rw [place, place, follow_append_cons, follow_nil]

theorem IsName.not_isAbsolute {name : Text} (isName : IsName name) : isAbsolute name = false := by
  refine Bool.eq_false_iff.mpr fun absolute => ?_
  rcases isAbsolute_iff.mp absolute with ⟨rest, begins⟩
  exact isName.whole (begins ▸ List.mem_cons_self)

/-- A name lies right below the directory that it is read in. -/
theorem place_under (directory : Text) {name : Text} (isName : IsName name) :
    place (under directory name) = place directory ++ [name] := by
  have single : IsPlace [name] := fun other member => List.mem_singleton.mp member ▸ isName
  have followed (start : List Text) : follow start name = start ++ [name] :=
    (congrArg (follow start) (Text.join_singleton ['/'] name).symm).trans
      (follow_join_names start single)
  rw [under_eq_append directory isName.not_isAbsolute]
  rcases List.eq_nil_or_concat directory with rfl | ⟨start, c, rfl⟩
  · exact followed []
  · rw [List.concat_eq_append, slashed_concat]
    split
    · next slash =>
        have directory : place (start ++ ['/']) = place start := by
          rw [place, follow_append_cons, follow_nil]
          rfl
        rw [slash, directory, List.append_assoc, List.singleton_append, place, follow_append_cons,
          followed]
        rfl
    · rw [List.append_assoc, List.singleton_append, place, follow_append_cons, followed]
      rfl

end Path
end Crosslink

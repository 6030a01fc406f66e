import Crosslink.Proofs.Revision.Canonical

namespace Crosslink
namespace Normalize

/-!
The canonical form of a target, read off from places.  In the directory of the file the
form is empty or `./`; below it the form is made of the names that lead down, unless it looks
as if it climbed; and a target that has no such form is written as its name if it lies
directly in the root.  A form of the first two kinds leads from the directory of the file to
its target again.
-/

/-- A path that leads down along some names and nowhere else. -/
def Descends (path : Text) (names : List Text) : Prop :=
  (names = [] ∧ path = ['.', '/']) ∨ (names ≠ [] ∧ path = Text.join ['/'] names)

theorem Descends.nonempty {path : Text} {names : List Text} (descends : Descends path names)
    (isPlace : Path.IsPlace names) : path ≠ [] := by
  rcases descends with ⟨_, dotted⟩ | ⟨proper, joined⟩
  · rw [dotted]
    exact List.cons_ne_nil _ _
  · rw [joined]
    intro empty
    exact proper ((Text.join_eq_nil_iff fun name member => (isPlace name member).nonempty).mp empty)

theorem Descends.follow {path : Text} {names : List Text} (descends : Descends path names)
    (isPlace : Path.IsPlace names) (start : List Text) :
    Path.follow start path = start ++ names := by
  rcases descends with ⟨nowhere, dotted⟩ | ⟨_, joined⟩
  · rw [nowhere, List.append_nil, dotted, Path.follow_here_cons, Path.follow_nil]
  · rw [joined, Path.follow_join_names start isPlace]

theorem Descends.plain {path : Text} {names : List Text} (descends : Descends path names)
    (each : ∀ name ∈ names, Href.Plain name) : Href.Plain path := by
  rcases descends with ⟨_, dotted⟩ | ⟨_, joined⟩
  · rw [dotted]
    decide
  · rw [joined]
    exact Href.plain_join each

theorem descends_singleton (name : Text) : Descends name [name] :=
  Or.inr ⟨List.cons_ne_nil name [], (Text.join_singleton _ name).symm⟩

variable {cwd root file href target path : Text} {tail : List Text} {strategy : Strategy}

/-! ## From the directory of the file -/

theorem fromHost?_of_climbs
    (climbing : climbs (Path.relativeHref cwd (Path.hostDir file) target) = true) :
    fromHost? cwd file href target = none := by
  simp only [fromHost?, climbing, if_true]

theorem fromHost?_of_not_climbs
    (flat : climbs (Path.relativeHref cwd (Path.hostDir file) target) = false) :
    fromHost? cwd file href target = some (Path.relativeHref cwd (Path.hostDir file) target) ∨
      fromHost? cwd file href target =
        some ((Path.relativeHref cwd (Path.hostDir file) target).drop 2) := by
  simp only [fromHost?, flat, Bool.false_eq_true, if_false]
  by_cases shortened : ((Path.relativeHref cwd (Path.hostDir file) target).startsWith ['.', '/'] &&
      !href.startsWith ['.', '/']) = true
  · rw [if_pos shortened]
    exact Or.inr rfl
  · rw [if_neg shortened]
    exact Or.inl rfl

theorem below_of_not_climbs (absolute : Path.isAbsolute file = true)
    (targetAbsolute : Path.isAbsolute target = true)
    (flat : climbs (Path.relativeHref cwd (Path.hostDir file) target) = false) :
    ∃ tail, Path.place target = Path.place (Path.hostDir file) ++ tail := by
  by_cases below : Path.place (Path.hostDir file) <+: Path.place target
  · rcases below with ⟨tail, joined⟩
    exact ⟨tail, joined.symm⟩
  · have climbing := Path.startsWith_up_relativeHref cwd (Path.isAbsolute_hostDir absolute)
      targetAbsolute below
    rw [climbs, show ['.', '.'] = Path.up from rfl, climbing] at flat
    cases flat

theorem canonical?_of_here (absolute : Path.isAbsolute file = true)
    (targetAbsolute : Path.isAbsolute target = true)
    (same : Path.place target = Path.place (Path.hostDir file)) :
    canonical? cwd root file href target =
      some (.relative, if href.startsWith ['.', '/'] then ['.', '/'] else []) := by
  have written := Path.relativeHref_of_same cwd (Path.isAbsolute_hostDir absolute)
    targetAbsolute same
  have found : fromHost? cwd file href target =
      some (if href.startsWith ['.', '/'] then ['.', '/'] else []) := by
    simp only [fromHost?, written]
    cases href.startsWith ['.', '/'] with
    | true => rfl
    | false => rfl
  exact canonical?_eq_some_iff.mpr (Or.inl ⟨found, rfl⟩)

theorem canonical?_of_below (absolute : Path.isAbsolute file = true)
    (targetAbsolute : Path.isAbsolute target = true)
    (below : Path.place target = Path.place (Path.hostDir file) ++ tail) (proper : tail ≠ [])
    (noBackslash : '\\' ∉ Text.join ['/'] tail) (flat : climbs (Text.join ['/'] tail) = false) :
    canonical? cwd root file href target = some (.relative, Text.join ['/'] tail) := by
  have tailPlace : Path.IsPlace tail := Path.isPlace_of_below below
  have written := Path.relativeHref_of_below cwd (Path.isAbsolute_hostDir absolute)
    targetAbsolute below proper
  rw [Text.replaceChar_of_not_mem _ noBackslash] at written
  have found : fromHost? cwd file href target = some (Text.join ['/'] tail) := by
    unfold fromHost?
    rw [written]
    simp only [flat, Path.join_not_dotted tailPlace, Bool.false_and, Bool.false_eq_true, if_false]
  exact canonical?_eq_some_iff.mpr (Or.inl ⟨found, rfl⟩)

/-! ## From the root -/

theorem relativeHref_of_fromRoot? (found : fromRoot? cwd root target = some path) :
    Path.relativeHref cwd root target = path ∧ climbs path = false ∧ '/' ∉ path := by
  unfold fromRoot? at found
  by_cases excluded : (climbs (Path.relativeHref cwd root target) ||
      (Path.relativeHref cwd root target).contains '/') = true
  · simp only [if_pos excluded] at found
    cases found
  · simp only [if_neg excluded] at found
    rcases Bool.or_eq_false_iff.mp (Bool.eq_false_iff.mpr excluded) with ⟨flat, single⟩
    have written := Option.some.inj found
    rw [written] at flat single
    refine ⟨written, flat, ?_⟩
    intro held
    exact Bool.false_ne_true (single.symm.trans (List.contains_iff_mem.mpr held))

/-- What is written as a bare name lies directly in the root under that name. -/
theorem child_of_fromRoot? (rooted : Path.isAbsolute root = true)
    (targetAbsolute : Path.isAbsolute target = true)
    (found : fromRoot? cwd root target = some path) :
    Path.place target = Path.place root ++ [path] ∧ climbs path = false := by
  rcases relativeHref_of_fromRoot? found with ⟨written, flat, single⟩
  refine ⟨?_, flat⟩
  by_cases below : Path.place root <+: Path.place target
  · rcases below with ⟨tail, joined⟩
    by_cases proper : tail = []
    · rw [proper, List.append_nil] at joined
      rw [Path.relativeHref_of_same cwd rooted targetAbsolute joined.symm] at written
      rw [← written] at single
      exact absurd (List.mem_cons_of_mem _ List.mem_cons_self) single
    · rw [Path.relativeHref_of_below cwd rooted targetAbsolute joined.symm proper] at written
      have noBackslash : '\\' ∉ Text.join ['/'] tail := fun held =>
        single (written ▸ Text.mem_replaceChar held)
      rw [Text.replaceChar_of_not_mem _ noBackslash] at written
      cases tail with
      | nil => exact absurd rfl proper
      | cons first rest =>
          cases rest with
          | nil =>
              rw [Text.join_singleton] at written
              rw [← written]
              exact joined.symm
          | cons second more =>
              rw [Text.join_cons_cons] at written
              apply absurd _ single
              rw [← written]
              exact List.mem_append_left _ (List.mem_append_right _ List.mem_cons_self)
  · have climbing := Path.startsWith_up_relativeHref cwd rooted targetAbsolute below
    rw [written] at climbing
    rw [climbs, show ['.', '.'] = Path.up from rfl, climbing] at flat
    cases flat

theorem fromRoot?_of_climbs
    (climbing : climbs (Path.relativeHref cwd (Path.hostDir file) target) = true)
    (form : canonical? cwd root file href target = some (strategy, path)) :
    fromRoot? cwd root target = some path := by
  rcases canonical?_eq_some_iff.mp form with ⟨near, _⟩ | ⟨_, inRoot, _⟩
  · rw [fromHost?_of_climbs climbing] at near
    cases near
  · exact inRoot

/-- A target whose relative path climbs has a canonical form only if it lies directly in the
root, and then the form is its name. -/
theorem child_of_canonical? (rooted : Path.isAbsolute root = true)
    (targetAbsolute : Path.isAbsolute target = true)
    (climbing : climbs (Path.relativeHref cwd (Path.hostDir file) target) = true)
    (form : canonical? cwd root file href target = some (strategy, path)) :
    Path.place target = Path.place root ++ [path] ∧ climbs path = false :=
  child_of_fromRoot? rooted targetAbsolute (fromRoot?_of_climbs climbing form)

/-! ## Both ways -/

theorem exists_canonical?_of_not_climbs
    (flat : climbs (Path.relativeHref cwd (Path.hostDir file) target) = false) :
    ∃ path, canonical? cwd root file href target = some (.relative, path) := by
  rcases fromHost?_of_not_climbs flat with found | found
  all_goals exact ⟨_, canonical?_eq_some_iff.mpr (Or.inl ⟨found, rfl⟩)⟩

theorem form_of_below (absolute : Path.isAbsolute file = true)
    (targetAbsolute : Path.isAbsolute target = true)
    (below : Path.place target = Path.place (Path.hostDir file) ++ tail)
    (noBackslash : ∀ name ∈ tail, '\\' ∉ name)
    (flat : climbs (Path.relativeHref cwd (Path.hostDir file) target) = false)
    (form : canonical? cwd root file href target = some (strategy, path)) :
    (path = [] ∧ href.startsWith ['.', '/'] = false ∧ tail = []) ∨
      Descends path tail ∧ climbs path = false := by
  by_cases proper : tail = []
  · have same := below
    rw [proper, List.append_nil] at same
    rw [canonical?_of_here absolute targetAbsolute same] at form
    cases dotted : href.startsWith ['.', '/'] with
    | true =>
        simp only [dotted, if_true] at form
        cases form
        exact Or.inr ⟨Or.inl ⟨proper, rfl⟩, rfl⟩
    | false =>
        simp only [dotted, Bool.false_eq_true, if_false] at form
        cases form
        exact Or.inl ⟨rfl, rfl, proper⟩
  · have joined : '\\' ∉ Text.join ['/'] tail := by
      intro held
      rcases Text.mem_join held with slash | ⟨name, member, inName⟩
      · exact absurd (List.mem_singleton.mp slash) (by decide)
      · exact noBackslash name member inName
    have written := Path.relativeHref_of_below cwd (Path.isAbsolute_hostDir absolute)
      targetAbsolute below proper
    rw [Text.replaceChar_of_not_mem _ joined] at written
    rw [written] at flat
    rw [canonical?_of_below absolute targetAbsolute below proper joined flat] at form
    cases form
    exact Or.inr ⟨Or.inr ⟨proper, rfl⟩, flat⟩

/-- A form that does not come from the root is empty or leads down from the directory of the
file. -/
theorem form_of_not_climbs (absolute : Path.isAbsolute file = true)
    (targetAbsolute : Path.isAbsolute target = true)
    (plain : ∀ name ∈ Path.place target, Href.Plain name)
    (flat : climbs (Path.relativeHref cwd (Path.hostDir file) target) = false)
    (form : canonical? cwd root file href target = some (strategy, path)) :
    (path = [] ∧ href.startsWith ['.', '/'] = false ∧
        Path.place target = Path.place (Path.hostDir file)) ∨
      ∃ tail, Descends path tail ∧ climbs path = false ∧
        Path.place target = Path.place (Path.hostDir file) ++ tail := by
  rcases below_of_not_climbs absolute targetAbsolute flat with ⟨tail, below⟩
  have noBackslash : ∀ name ∈ tail, '\\' ∉ name := fun name member =>
    (plain name (below ▸ List.mem_append_right _ member)).noBackslash
  rcases form_of_below absolute targetAbsolute below noBackslash flat form with
    ⟨empty, undotted, here⟩ | ⟨descends, flatPath⟩
  · rw [here, List.append_nil] at below
    exact Or.inl ⟨empty, undotted, below⟩
  · exact Or.inr ⟨tail, descends, flatPath, below⟩

/-- A form is empty exactly if the target is the directory of the file and the link was not
written with `./`. -/
theorem form_eq_nil_iff (rooted : Path.isAbsolute root = true)
    (absolute : Path.isAbsolute file = true) (targetAbsolute : Path.isAbsolute target = true)
    (plain : ∀ name ∈ Path.place target, Href.Plain name)
    (form : canonical? cwd root file href target = some (strategy, path)) :
    path = [] ↔ Path.relativeHref cwd (Path.hostDir file) target = ['.', '/'] ∧
      href.startsWith ['.', '/'] = false := by
  constructor
  · intro empty
    cases climbing : climbs (Path.relativeHref cwd (Path.hostDir file) target) with
    | true =>
        have child := (child_of_canonical? rooted targetAbsolute climbing form).1
        have isName : Path.IsName path := Path.place_isPlace target path
          (child ▸ List.mem_append_right _ List.mem_cons_self)
        exact absurd empty isName.nonempty
    | false =>
        rcases form_of_not_climbs absolute targetAbsolute plain climbing form with
          ⟨_, undotted, same⟩ | ⟨tail, descends, _, below⟩
        · exact ⟨Path.relativeHref_of_same cwd (Path.isAbsolute_hostDir absolute)
            targetAbsolute same, undotted⟩
        · have tailPlace : Path.IsPlace tail := Path.isPlace_of_below below
          exact absurd empty (descends.nonempty tailPlace)
  · rintro ⟨here, undotted⟩
    have found : fromHost? cwd file href target = some [] := by
      simp only [fromHost?, here, undotted]
      rfl
    rw [canonical?_eq_some_iff.mpr (Or.inl ⟨found, rfl⟩)] at form
    cases form
    rfl

/-- A form that leads down along some names is found again for a target that lies there below
the directory of the file. -/
theorem canonical?_of_descends (absolute : Path.isAbsolute file = true)
    (targetAbsolute : Path.isAbsolute target = true) (descends : Descends path tail)
    (below : Path.place target = Path.place (Path.hostDir file) ++ tail)
    (noBackslash : '\\' ∉ path) (flat : climbs path = false) (written : path <+: href) :
    canonical? cwd root file href target = some (.relative, path) := by
  rcases descends with ⟨nowhere, dotted⟩ | ⟨proper, joined⟩
  · rw [nowhere, List.append_nil] at below
    rw [dotted] at written
    rw [canonical?_of_here absolute targetAbsolute below, Text.startsWith_iff.mpr written, dotted]
    rfl
  · rw [joined] at noBackslash flat
    rw [canonical?_of_below absolute targetAbsolute below proper noBackslash flat, joined]

theorem backslash_not_mem_canonical?
    (form : canonical? cwd root file href target = some (strategy, path)) : '\\' ∉ path := by
  cases climbing : climbs (Path.relativeHref cwd (Path.hostDir file) target) with
  | false =>
      have plain := Path.backslash_not_mem_relativeHref cwd (Path.hostDir file) target
      rcases fromHost?_of_not_climbs climbing with found | found
      · rw [canonical?_eq_some_iff.mpr (Or.inl ⟨found, rfl⟩)] at form
        cases form
        exact plain
      · rw [canonical?_eq_some_iff.mpr (Or.inl ⟨found, rfl⟩)] at form
        cases form
        exact fun held => plain (List.mem_of_mem_drop held)
  | true =>
      rw [← (relativeHref_of_fromRoot? (fromRoot?_of_climbs climbing form)).1]
      exact Path.backslash_not_mem_relativeHref cwd root target

end Normalize
end Crosslink

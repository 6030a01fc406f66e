import Crosslink.Proofs.Path.Place

namespace Crosslink
namespace Path

/-!
Relative paths between places.  The names of a relative path are a route: a step up for
each name that only the base has, then the names that only the target has.  Followed from
the base a route ends at the target, and it begins with a step up exactly when the target
does not lie in or below the base.  So a relative path that is joined to its base gives its
target back.
-/

/-- The names of a relative path from one place to another. -/
def route (base target : List Text) : List Text :=
  List.replicate (base.length - commonLength base target) up
    ++ target.drop (commonLength base target)

/-! ## The common beginning of two places -/

theorem commonLength_le (base target : List Text) : commonLength base target ≤ base.length := by
  induction base generalizing target with
  | nil => exact Nat.le_refl 0
  | cons first rest inductionHypothesis =>
      cases target with
      | nil => exact Nat.zero_le _
      | cons other more =>
          rw [commonLength]
          split
          · exact Nat.succ_le_succ (inductionHypothesis more)
          · exact Nat.zero_le _

theorem take_commonLength (base target : List Text) :
    base.take (commonLength base target) = target.take (commonLength base target) := by
  induction base generalizing target with
  | nil =>
      rw [show commonLength [] target = 0 from rfl, List.take_zero, List.take_zero]
  | cons first rest inductionHypothesis =>
      cases target with
      | nil => rfl
      | cons other more =>
          rw [commonLength]
          split
          · next same =>
              rw [List.take_succ_cons, List.take_succ_cons, inductionHypothesis, same]
          · rfl

@[simp] theorem commonLength_append (base tail : List Text) :
    commonLength base (base ++ tail) = base.length := by
  induction base with
  | nil => rfl
  | cons first rest inductionHypothesis =>
      rw [List.cons_append, commonLength, if_pos rfl, inductionHypothesis, List.length_cons]

/-! ## Routes -/

@[simp] theorem route_append (base tail : List Text) : route base (base ++ tail) = tail := by
  rw [route, commonLength_append, Nat.sub_self, List.replicate_zero, List.nil_append,
    List.drop_left]

/-- A route to a place outside the base begins with a step up. -/
theorem route_of_not_prefix {base target : List Text} (outside : ¬ base <+: target) :
    ∃ rest, route base target = up :: rest := by
  have shorter : commonLength base target < base.length := by
    refine Nat.lt_of_le_of_ne (commonLength_le base target) ?_
    intro whole
    have shared := take_commonLength base target
    rw [whole, List.take_length] at shared
    exact outside (shared ▸ List.take_prefix _ _)
  rcases Nat.exists_eq_add_of_lt shorter with ⟨steps, counted⟩
  have positive : base.length - commonLength base target = steps + 1 := by omega
  rw [route, positive, List.replicate_succ]
  exact ⟨_, rfl⟩

theorem eq_of_mem_up {c : Char} (held : c ∈ up) : c = '.' :=
  List.eq_of_mem_replicate (show c ∈ List.replicate 2 '.' from held)

theorem mem_route {base target : List Text} {name : Text} (member : name ∈ route base target) :
    name = up ∨ name ∈ target := by
  rcases List.mem_append.mp member with climbing | descending
  · exact Or.inl (List.eq_of_mem_replicate climbing)
  · exact Or.inr (List.mem_of_mem_drop descending)

theorem whole_of_mem_route {base target : List Text} (targetPlace : IsPlace target) {name : Text}
    (member : name ∈ route base target) : name ≠ [] ∧ name ≠ here ∧ '/' ∉ name := by
  rcases mem_route member with climbing | descending
  · rw [climbing]
    exact ⟨by decide, by decide, by decide⟩
  · have isName := targetPlace name descending
    exact ⟨isName.nonempty, isName.notHere, isName.whole⟩

theorem foldl_push_route {base target : List Text} (basePlace : IsPlace base)
    (targetPlace : IsPlace target) :
    ((route base target).foldl (push true) base.reverse).reverse = target := by
  have reversed : IsPlace base.reverse := fun name member =>
    basePlace name (List.mem_reverse.mp member)
  have dropped : IsPlace (target.drop (commonLength base target)) := fun name member =>
    targetPlace name (List.mem_of_mem_drop member)
  have climbed : base.reverse.drop (base.length - commonLength base target) =
      (base.take (commonLength base target)).reverse := by
    rw [List.drop_reverse]
    have := commonLength_le base target
    rw [show base.length - (base.length - commonLength base target) =
      commonLength base target by omega]
  calc ((route base target).foldl (push true) base.reverse).reverse
      = ((target.drop (commonLength base target)).reverse ++
          (base.take (commonLength base target)).reverse).reverse := by
        rw [route, List.foldl_append, foldl_push_up reversed, foldl_push_names dropped, climbed]
    _ = base.take (commonLength base target) ++ target.drop (commonLength base target) := by
        rw [List.reverse_append, List.reverse_reverse, List.reverse_reverse]
    _ = target := by rw [take_commonLength, List.take_append_drop]

theorem le_commonLength_append (shared first second : List Text) :
    shared.length ≤ commonLength (shared ++ first) (shared ++ second) := by
  induction shared with
  | nil => exact Nat.zero_le _
  | cons name rest inductionHypothesis =>
      rw [List.cons_append, List.cons_append, commonLength, if_pos rfl, List.length_cons]
      exact Nat.succ_le_succ inductionHypothesis

/-- The route to where a path leads is made of steps up and of names that stand in the path. -/
theorem mem_route_follow {start : List Text} {path name : Text}
    (member : name ∈ route start (follow start path)) : name = up ∨ name ∈ path.splitOn '/' := by
  rcases follow_eq_take_append start path with ⟨count, added, followed, written⟩
  have shared : (start.take count).length ≤ commonLength start (start.take count ++ added) := by
    have least := le_commonLength_append (start.take count) (start.drop count) added
    rw [List.take_append_drop] at least
    exact least
  rw [followed] at member
  rcases List.mem_append.mp member with climbing | descending
  · exact Or.inl (List.eq_of_mem_replicate climbing)
  · rw [List.drop_append, List.drop_eq_nil_of_le shared, List.nil_append] at descending
    exact Or.inr (written name (List.mem_of_mem_drop descending))

/-! ## Relative paths as text -/

theorem render_zero_of_ne_nil {names : List Text} (nonempty : names ≠ [])
    (each : ∀ name ∈ names, name ≠ []) : render 0 names = Text.join ['/'] names := by
  have written : Text.join ['/'] names ≠ [] := fun empty =>
    nonempty ((Text.join_eq_nil_iff each).mp empty)
  rw [render, List.replicate_zero, List.nil_append]
  exact if_neg fun empty => written (List.isEmpty_iff.mp empty)

theorem follow_render_zero (start : List Text) {names : List Text}
    (whole : ∀ name ∈ names, name ≠ [] ∧ '/' ∉ name) :
    follow start (render 0 names) = (names.foldl (push true) start.reverse).reverse := by
  by_cases empty : names = []
  · rw [empty, show render 0 [] = here from rfl, follow_here, List.foldl_nil,
      List.reverse_reverse]
  · rw [render_zero_of_ne_nil empty fun name member => (whole name member).1,
      follow_join start fun name member => (whole name member).2]

theorem mem_render {slashes : Nat} {names : List Text} {c : Char}
    (held : c ∈ render slashes names) : c = '.' ∨ c = '/' ∨ ∃ name ∈ names, c ∈ name := by
  rw [render] at held
  split at held
  · exact Or.inl (List.mem_singleton.mp held)
  · rcases List.mem_append.mp held with slash | joined
    · exact Or.inr (Or.inl (List.eq_of_mem_replicate slash))
    · rcases Text.mem_join joined with slash | among
      · exact Or.inr (Or.inl (List.mem_singleton.mp slash))
      · exact Or.inr (Or.inr among)

theorem mem_render_of_mem (slashes : Nat) {names : List Text} {name : Text} {c : Char}
    (member : name ∈ names) (held : c ∈ name) : c ∈ render slashes names := by
  have inside : c ∈ List.replicate slashes '/' ++ Text.join ['/'] names :=
    List.mem_append_right _ (Text.mem_join_of_mem member held)
  rw [render]
  split
  · next empty =>
      rw [List.isEmpty_iff.mp empty] at inside
      exact absurd inside List.not_mem_nil
  · exact inside

@[simp] theorem names_cons_slash (path : Text) : names ('/' :: path) = names path := rfl

theorem names_join {place : List Text} (isPlace : IsPlace place) :
    names (Text.join ['/'] place) = place := by
  by_cases empty : place = []
  · rw [empty]
    rfl
  · rw [names, Text.splitOn_join empty fun name member => (isPlace name member).whole]
    refine List.filter_eq_self.mpr ?_
    intro name member
    have nonempty := (isPlace name member).nonempty
    cases name with
    | nil => exact absurd rfl nonempty
    | cons c rest => rfl

theorem names_render_succ {place : List Text} (isPlace : IsPlace place) (slashes : Nat) :
    names (render (slashes + 1) place) = place := by
  have shape : render (slashes + 1) place =
      List.replicate (slashes + 1) '/' ++ Text.join ['/'] place := rfl
  have skipped : ∀ count, names (List.replicate count '/' ++ Text.join ['/'] place) =
      names (Text.join ['/'] place) := by
    intro count
    induction count with
    | zero => rfl
    | succ count inductionHypothesis =>
        rw [List.replicate_succ, List.cons_append, names_cons_slash, inductionHypothesis]
  rw [shape, skipped, names_join isPlace]

theorem names_absolute (cwd : Text) {path : Text} (absolute : isAbsolute path = true) :
    names (Path.absolute cwd path) = place path := by
  rcases rootSlashes_of_isAbsolute absolute with ⟨slashes, counted⟩
  have normal : normalize path = render (slashes + 1) (place path) := by
    rw [normalize, counted]
    rfl
  calc names (Path.absolute cwd path)
    _ = names (render (slashes + 1) (place path)) := by
      rw [Path.absolute, under, if_pos absolute, normal]
    _ = place path := names_render_succ (place_isPlace path) slashes

variable {cwd base target : Text}

theorem relative_eq_render (cwd : Text) (baseAbsolute : isAbsolute base = true)
    (targetAbsolute : isAbsolute target = true) :
    relative cwd base target = render 0 (route (place base) (place target)) := by
  rw [relative, names_absolute cwd baseAbsolute, names_absolute cwd targetAbsolute]
  rfl

theorem follow_relative (cwd : Text) (baseAbsolute : isAbsolute base = true)
    (targetAbsolute : isAbsolute target = true) :
    follow (place base) (relative cwd base target) = place target := by
  have routeWhole : ∀ name ∈ route (place base) (place target), name ≠ [] ∧ '/' ∉ name :=
    fun name member =>
      have parts := whole_of_mem_route (place_isPlace target) member
      ⟨parts.1, parts.2.2⟩
  rw [relative_eq_render cwd baseAbsolute targetAbsolute, follow_render_zero _ routeWhole,
    foldl_push_route (place_isPlace base) (place_isPlace target)]

/-! ## Relative paths as they are written into links -/

theorem relative_of_same (cwd : Text) (baseAbsolute : isAbsolute base = true)
    (targetAbsolute : isAbsolute target = true) (same : place target = place base) :
    relative cwd base target = here := by
  have stays := route_append (place base) []
  rw [List.append_nil] at stays
  rw [relative_eq_render cwd baseAbsolute targetAbsolute, same, stays]
  rfl

theorem relativeHref_of_same (cwd : Text) (baseAbsolute : isAbsolute base = true)
    (targetAbsolute : isAbsolute target = true) (same : place target = place base) :
    relativeHref cwd base target = ['.', '/'] := by
  rw [relativeHref, relative_of_same cwd baseAbsolute targetAbsolute same]
  exact if_pos rfl

theorem isPlace_of_below {start tail : List Text} (below : place target = start ++ tail) :
    IsPlace tail :=
  fun name member => place_isPlace target name (below ▸ List.mem_append_right _ member)

/-- Below its base a target is written as the names that lead down to it. -/
theorem relative_of_below (cwd : Text) (baseAbsolute : isAbsolute base = true)
    (targetAbsolute : isAbsolute target = true) {tail : List Text}
    (below : place target = place base ++ tail) (proper : tail ≠ []) :
    relative cwd base target = Text.join ['/'] tail := by
  rw [relative_eq_render cwd baseAbsolute targetAbsolute, below, route_append,
    render_zero_of_ne_nil proper fun name member => (isPlace_of_below below name member).nonempty]

theorem join_ne_here {names : List Text} (isPlace : IsPlace names) :
    Text.join ['/'] names ≠ here := by
  intro same
  have followed := follow_join_names [] isPlace
  rw [same, follow_here, List.nil_append] at followed
  rw [← followed, Text.join_nil] at same
  cases same

theorem relativeHref_of_below (cwd : Text) (baseAbsolute : isAbsolute base = true)
    (targetAbsolute : isAbsolute target = true) {tail : List Text}
    (below : place target = place base ++ tail) (proper : tail ≠ []) :
    relativeHref cwd base target = (Text.join ['/'] tail).replaceChar '\\' '/' := by
  rw [relativeHref, relative_of_below cwd baseAbsolute targetAbsolute below proper]
  exact if_neg (join_ne_here (isPlace_of_below below))

/-- Below its base only the base itself is written as the directory itself. -/
theorem relative_eq_here_iff (cwd : Text) (baseAbsolute : isAbsolute base = true)
    (targetAbsolute : isAbsolute target = true) {tail : List Text}
    (below : place target = place base ++ tail) :
    relative cwd base target = here ↔ tail = [] := by
  constructor
  · intro nowhere
    by_contra proper
    rw [relative_of_below cwd baseAbsolute targetAbsolute below proper] at nowhere
    exact join_ne_here (isPlace_of_below below) nowhere
  · intro empty
    rw [empty, List.append_nil] at below
    exact relative_of_same cwd baseAbsolute targetAbsolute below

theorem mem_relativeHref (baseAbsolute : isAbsolute base = true)
    (targetAbsolute : isAbsolute target = true) {c : Char} (held : c ∈ relativeHref cwd base target) :
    c = '.' ∨ c = '/' ∨ ∃ name ∈ route (place base) (place target), c ∈ name := by
  unfold relativeHref at held
  by_cases nowhere : relative cwd base target = here
  · simp only [if_pos nowhere] at held
    rcases List.mem_cons.mp held with dot | behind
    · exact Or.inl dot
    · exact Or.inr (Or.inl (List.mem_singleton.mp behind))
  · simp only [if_neg nowhere] at held
    rcases List.mem_map.mp held with ⟨d, inPath, exchanged⟩
    split at exchanged
    · exact Or.inr (Or.inl exchanged.symm)
    · rw [relative_eq_render cwd baseAbsolute targetAbsolute, exchanged] at inPath
      exact mem_render inPath

theorem backslash_not_mem_relativeHref (cwd base target : Text) :
    '\\' ∉ relativeHref cwd base target := by
  unfold relativeHref
  by_cases nowhere : relative cwd base target = here
  · simp only [if_pos nowhere]
    decide
  · simp only [if_neg nowhere]
    exact Text.not_mem_replaceChar (by decide) _

/-- Names joined with slashes never begin with a step to the directory itself. -/
theorem join_not_dotted {names : List Text} (isPlace : IsPlace names) :
    (Text.join ['/'] names).startsWith ['.', '/'] = false := by
  apply Bool.eq_false_iff.mpr
  intro dotted
  rcases Text.startsWith_iff.mp dotted with ⟨behind, joined⟩
  cases names with
  | nil => cases joined
  | cons first rest =>
      have isName := isPlace first List.mem_cons_self
      apply isName.notHere
      have ahead := Text.before_join rest isName.whole
      rw [← joined] at ahead
      exact ahead.symm

/-- A target outside its base is written with a step up at the beginning. -/
theorem startsWith_up_relativeHref (cwd : Text) (baseAbsolute : isAbsolute base = true)
    (targetAbsolute : isAbsolute target = true) (outside : ¬ place base <+: place target) :
    (relativeHref cwd base target).startsWith up = true := by
  rcases route_of_not_prefix outside with ⟨rest, climbs⟩
  have each : ∀ name ∈ up :: rest, name ≠ [] := fun name member =>
    (whole_of_mem_route (place_isPlace target) (climbs ▸ member)).1
  obtain ⟨behind, written⟩ : ∃ behind, relative cwd base target = '.' :: '.' :: behind := by
    rw [relative_eq_render cwd baseAbsolute targetAbsolute, climbs,
      render_zero_of_ne_nil (List.cons_ne_nil up rest) each]
    cases rest with
    | nil => exact ⟨[], rfl⟩
    | cons second more => exact ⟨_, Text.join_cons_cons _ _ _ _⟩
  rw [relativeHref, written]
  rfl

/-! ## Relative paths read back -/

theorem mem_of_mem_place {path name : Text} {c : Char} (member : name ∈ place path)
    (held : c ∈ name) : c ∈ path := by
  have below : follow [] path = [] ++ place path := (List.nil_append _).symm
  exact Text.mem_of_mem_splitOn (mem_splitOn_of_follow_below below member) held

theorem backslash_not_mem_relative (cwd : Text) (baseAbsolute : isAbsolute base = true)
    (targetAbsolute : isAbsolute target = true) (plain : '\\' ∉ target) :
    '\\' ∉ relative cwd base target := by
  rw [relative_eq_render cwd baseAbsolute targetAbsolute]
  intro held
  rcases mem_render held with dot | slash | ⟨name, onRoute, inName⟩
  · cases dot
  · cases slash
  · rcases mem_route onRoute with climbing | descending
    · rw [climbing] at inName
      cases eq_of_mem_up inName
    · exact plain (mem_of_mem_place descending inName)

/-- Where the relative path holds no backslash, the path in the link leads to the target, too. -/
theorem follow_relativeHref (cwd : Text) (baseAbsolute : isAbsolute base = true)
    (targetAbsolute : isAbsolute target = true) (plain : '\\' ∉ relative cwd base target) :
    follow (place base) (relativeHref cwd base target) = place target := by
  have leads := follow_relative cwd baseAbsolute targetAbsolute
  by_cases nowhere : relative cwd base target = here
  · have dotted : relativeHref cwd base target = ['.', '/'] := if_pos nowhere
    rw [nowhere, follow_here] at leads
    rw [dotted, follow_here_cons, follow_nil, leads]
  · have kept : relativeHref cwd base target = relative cwd base target :=
      (if_neg nowhere).trans (Text.replaceChar_of_not_mem _ plain)
    rw [kept, leads]

theorem concat_eq_concat_iff (baseAbsolute : isAbsolute base = true)
    (targetAbsolute : isAbsolute target = true) :
    concat [base] = concat [target] ↔ place base = place target := by
  rw [concat_eq_spell baseAbsolute [], concat_eq_spell targetAbsolute [], List.foldl_nil,
    List.foldl_nil]
  constructor
  · intro same
    rw [← place_spell (place_isPlace base), same, place_spell (place_isPlace target)]
  · exact congrArg spell

/-- Between absolute paths there is a relative path, and joined to its base it gives the normal
form of its target back, if the target holds no backslash.  It is that of the directory itself
if both have one normal form, and only then. -/
theorem concat_relativeHref? (cwd : Text) (baseAbsolute : isAbsolute base = true)
    (targetAbsolute : isAbsolute target = true) (plain : '\\' ∉ target) :
    ∃ href, relativeHref? cwd base target = .ok href ∧
      concat [base, href] = concat [target] ∧
      (href = ['.', '/'] ↔ concat [base] = concat [target]) := by
  have leads := follow_relativeHref cwd baseAbsolute targetAbsolute
    (backslash_not_mem_relative cwd baseAbsolute targetAbsolute plain)
  have someTarget : ¬ target.isEmpty = true := by
    intro empty
    rw [List.isEmpty_iff.mp empty] at targetAbsolute
    cases targetAbsolute
  refine ⟨relativeHref cwd base target, if_neg someTarget, ?_, ?_⟩
  · rw [concat_eq_spell baseAbsolute, concat_eq_spell targetAbsolute, List.foldl_cons, leads,
      List.foldl_nil]
  · rw [concat_eq_concat_iff baseAbsolute targetAbsolute]
    constructor
    · intro dotted
      rw [dotted, follow_here_cons, follow_nil] at leads
      exact leads
    · intro same
      exact relativeHref_of_same cwd baseAbsolute targetAbsolute same.symm

/-- Up from a directory that is spelled with a step to itself, and down from the root, where
another step up leads nowhere. -/
theorem concat_relativeHref?_climbing :
    (isAbsolute "//a/./b//c" = true ∧ isAbsolute "/../a/x/../d.md" = true ∧
        '\\' ∉ ("/../a/x/../d.md" : Text)) ∧
      relativeHref? "/w" "//a/./b//c" "/../a/x/../d.md" = .ok "../../d.md" ∧
      concat ["//a/./b//c", "../../d.md"] = "/a/d.md" := by
  have baseAbsolute : isAbsolute "//a/./b//c" = true := by decide
  have targetAbsolute : isAbsolute "/../a/x/../d.md" = true := by decide
  have plain : '\\' ∉ ("/../a/x/../d.md" : Text) := by decide
  have climbs : relativeHref? "/w" "//a/./b//c" "/../a/x/../d.md" = .ok "../../d.md" := by
    decide +kernel
  obtain ⟨href, made, joined, _⟩ := concat_relativeHref? "/w" baseAbsolute targetAbsolute plain
  have same : href = "../../d.md" := Except.ok.inj (made.symm.trans climbs)
  rw [same] at joined
  exact ⟨⟨baseAbsolute, targetAbsolute, plain⟩, climbs,
    joined.trans (by decide +kernel : _ = ("/a/d.md" : Text))⟩

end Path
end Crosslink

import Crosslink.Path
import Crosslink.Proofs.Text.Pieces

namespace Crosslink
namespace Path

/-!
Absolute paths as places.  A place is the list of names that an absolute path leads
through once it is settled; it holds no name that normalisation would treat in a special
way.  Reading a further path from a place is `follow`, and the operations on absolute
paths are stated here as operations on places: concatenation follows the later parts from
the place of the first one, and a spelled place is read back as itself.
-/

/-- A name that normalisation keeps. -/
structure IsName (name : Text) : Prop where
  /-- The name is not empty. -/
  nonempty : name ≠ []
  /-- The name is not that of the directory itself. -/
  notHere : name ≠ here
  /-- The name is not that of the parent directory. -/
  notUp : name ≠ up
  /-- The name is a single component. -/
  whole : '/' ∉ name

instance (name : Text) : Decidable (IsName name) :=
  decidable_of_iff (name ≠ [] ∧ name ≠ here ∧ name ≠ up ∧ '/' ∉ name)
    ⟨fun ⟨nonempty, notHere, notUp, whole⟩ => ⟨nonempty, notHere, notUp, whole⟩,
      fun isName => ⟨isName.nonempty, isName.notHere, isName.notUp, isName.whole⟩⟩

def IsPlace (names : List Text) : Prop :=
  ∀ name ∈ names, IsName name

def follow (start : List Text) (path : Text) : List Text :=
  ((path.splitOn '/').foldl (push true) start.reverse).reverse

def place (path : Text) : List Text :=
  follow [] path

def spell (names : List Text) : Text :=
  '/' :: Text.join ['/'] names

/-! ## One component -/

@[simp] theorem push_empty (kept : List Text) : push true kept [] = kept := rfl

@[simp] theorem push_here (kept : List Text) : push true kept here = kept := rfl

theorem push_name {rooted : Bool} {name : Text} (isName : IsName name) (kept : List Text) :
    push rooted kept name = name :: kept := by
  have plain : ¬ (name = [] ∨ name = here) := by
    rintro (empty | same)
    · exact isName.nonempty empty
    · exact isName.notHere same
  unfold push
  rw [if_neg plain, if_neg isName.notUp]

theorem push_up {top : Text} (isName : IsName top) (rest : List Text) :
    push true (top :: rest) up = rest := by
  have special : ¬ (up = [] ∨ up = here) := by decide
  rw [push, if_neg special, if_pos rfl]
  exact if_neg isName.notUp

@[simp] theorem push_up_nil : push true [] up = [] := rfl

/-- One more component leaves a place a place. -/
theorem push_isPlace {kept : List Text} (isPlace : IsPlace kept) {name : Text}
    (whole : '/' ∉ name) : IsPlace (push true kept name) := by
  by_cases special : name = [] ∨ name = here
  · unfold push
    rw [if_pos special]
    exact isPlace
  · by_cases climbs : name = up
    · rw [climbs]
      cases kept with
      | nil =>
          rw [push_up_nil]
          exact isPlace
      | cons top rest =>
          rw [push_up (isPlace top List.mem_cons_self)]
          exact fun other member => isPlace other (List.mem_cons_of_mem top member)
    · have isName : IsName name :=
        ⟨fun empty => special (Or.inl empty), fun same => special (Or.inr same), climbs, whole⟩
      rw [push_name isName]
      intro other member
      rcases List.mem_cons.mp member with same | later
      · exact same ▸ isName
      · exact isPlace other later

theorem push_eq_append_drop (kept : List Text) (name : Text) :
    ∃ added away, push true kept name = added ++ kept.drop away ∧
      ∀ other ∈ added, other = name := by
  unfold push
  split
  · exact ⟨[], 0, rfl, fun _ member => absurd member List.not_mem_nil⟩
  · split
    · next climbs =>
        cases kept with
        | nil => exact ⟨[], 0, rfl, fun _ member => absurd member List.not_mem_nil⟩
        | cons top rest =>
            by_cases same : top = up
            · refine ⟨[up], 0, if_pos same, ?_⟩
              intro other member
              rw [climbs]
              exact List.mem_singleton.mp member
            · exact ⟨[], 1, if_neg same, fun _ member => absurd member List.not_mem_nil⟩
    · exact ⟨[name], 0, rfl, fun _ member => List.mem_singleton.mp member⟩

/-! ## Several components -/

theorem foldl_push_isPlace {kept : List Text} (isPlace : IsPlace kept) {components : List Text}
    (whole : ∀ name ∈ components, '/' ∉ name) : IsPlace (components.foldl (push true) kept) := by
  induction components generalizing kept with
  | nil => exact isPlace
  | cons first rest inductionHypothesis =>
      exact inductionHypothesis (push_isPlace isPlace (whole first List.mem_cons_self))
        (fun name member => whole name (List.mem_cons_of_mem first member))

theorem foldl_push_names {names : List Text} (isPlace : IsPlace names) (kept : List Text) :
    names.foldl (push true) kept = names.reverse ++ kept := by
  induction names generalizing kept with
  | nil => rfl
  | cons first rest inductionHypothesis =>
      have restPlace : IsPlace rest :=
        fun name member => isPlace name (List.mem_cons_of_mem first member)
      rw [List.foldl_cons, push_name (isPlace first List.mem_cons_self),
        inductionHypothesis restPlace, List.reverse_cons, List.append_assoc, List.singleton_append]

theorem foldl_push_eq_append_drop (components kept : List Text) :
    ∃ added away, components.foldl (push true) kept = added ++ kept.drop away ∧
      ∀ name ∈ added, name ∈ components := by
  induction components generalizing kept with
  | nil => exact ⟨[], 0, rfl, fun _ member => absurd member List.not_mem_nil⟩
  | cons first rest inductionHypothesis =>
      rcases push_eq_append_drop kept first with ⟨ahead, gone, pushed, fromFirst⟩
      rcases inductionHypothesis (push true kept first) with ⟨added, away, folded, fromRest⟩
      refine ⟨added ++ ahead.drop away, gone + (away - ahead.length), ?_, ?_⟩
      · rw [List.foldl_cons, folded, pushed, List.drop_append, List.drop_drop, List.append_assoc]
      · intro name member
        rcases List.mem_append.mp member with later | earlier
        · exact List.mem_cons_of_mem first (fromRest name later)
        · rw [fromFirst name (List.mem_of_mem_drop earlier)]
          exact List.mem_cons_self

/-- Each step up takes one name away. -/
theorem foldl_push_up {kept : List Text} (isPlace : IsPlace kept) (steps : Nat) :
    (List.replicate steps up).foldl (push true) kept = kept.drop steps := by
  induction steps generalizing kept with
  | zero => rfl
  | succ steps inductionHypothesis =>
      rw [List.replicate_succ, List.foldl_cons]
      cases kept with
      | nil =>
          rw [push_up_nil, inductionHypothesis isPlace, List.drop_nil, List.drop_nil]
      | cons top rest =>
          rw [push_up (isPlace top List.mem_cons_self), List.drop_succ_cons]
          exact inductionHypothesis
            (fun name member => isPlace name (List.mem_cons_of_mem top member))

/-! ## Following a path -/

@[simp] theorem follow_nil (start : List Text) : follow start [] = start := by
  rw [follow, Text.splitOn, List.foldl_cons, push_empty, List.foldl_nil, List.reverse_reverse]

@[simp] theorem follow_here (start : List Text) : follow start here = start := by
  rw [follow, show here.splitOn '/' = [here] from rfl, List.foldl_cons, push_here, List.foldl_nil,
    List.reverse_reverse]

/-- A path with a slash is followed in two steps. -/
theorem follow_append_cons (start : List Text) (first second : Text) :
    follow start (first ++ '/' :: second) = follow (follow start first) second := by
  rw [follow, follow, follow, Text.splitOn_append_cons, List.foldl_append, List.reverse_reverse]

/-- A step to the directory itself in front of a path does not change where it leads. -/
theorem follow_here_cons (start : List Text) (path : Text) :
    follow start ('.' :: '/' :: path) = follow start path := by
  have led := follow_append_cons start here path
  rw [follow_here] at led
  exact led

theorem follow_isPlace {start : List Text} (isPlace : IsPlace start) (path : Text) :
    IsPlace (follow start path) := by
  have reversed : IsPlace start.reverse := fun name member =>
    isPlace name (List.mem_reverse.mp member)
  have kept : IsPlace ((path.splitOn '/').foldl (push true) start.reverse) :=
    foldl_push_isPlace reversed fun _ member => Text.not_mem_of_mem_splitOn member
  exact fun name member => kept name (List.mem_reverse.mp member)

theorem place_isPlace (path : Text) : IsPlace (place path) :=
  follow_isPlace (fun _ member => absurd member List.not_mem_nil) path

/-- The components of a path that has been put together are followed one by one. -/
theorem follow_join (start : List Text) {components : List Text}
    (whole : ∀ name ∈ components, '/' ∉ name) :
    follow start (Text.join ['/'] components) =
      (components.foldl (push true) start.reverse).reverse := by
  cases components with
  | nil => rw [Text.join_nil, follow_nil, List.foldl_nil, List.reverse_reverse]
  | cons first rest =>
      rw [follow, Text.splitOn_join (List.cons_ne_nil first rest) whole]

theorem follow_join_names (start : List Text) {names : List Text} (isPlace : IsPlace names) :
    follow start (Text.join ['/'] names) = start ++ names := by
  rw [follow_join start (fun name member => (isPlace name member).whole),
    foldl_push_names isPlace, List.reverse_append, List.reverse_reverse, List.reverse_reverse]

theorem follow_join_parts (start : List Text) (first : Text) (rest : List Text) :
    follow start (Text.join ['/'] (first :: rest)) = (first :: rest).foldl follow start := by
  induction rest generalizing start first with
  | nil => rw [Text.join_singleton, List.foldl_cons, List.foldl_nil]
  | cons second more inductionHypothesis =>
      calc follow start (Text.join ['/'] (first :: second :: more))
          = follow (follow start first) (Text.join ['/'] (second :: more)) := by
            rw [Text.join_cons_cons, List.append_assoc, List.singleton_append, follow_append_cons]
        _ = (first :: second :: more).foldl follow start := inductionHypothesis _ second

theorem follow_eq_take_append (start : List Text) (path : Text) :
    ∃ count added, follow start path = start.take count ++ added ∧
      ∀ name ∈ added, name ∈ path.splitOn '/' := by
  obtain ⟨added, away, folded, written⟩ :=
    foldl_push_eq_append_drop (path.splitOn '/') start.reverse
  refine ⟨start.length - away, added.reverse, ?_, ?_⟩
  · rw [follow, folded, List.reverse_append, List.drop_reverse, List.reverse_reverse]
  · intro name member
    exact written name (List.mem_reverse.mp member)

theorem mem_splitOn_of_follow_below {start tail : List Text} {path name : Text}
    (below : follow start path = start ++ tail) (member : name ∈ tail) :
    name ∈ path.splitOn '/' := by
  rcases follow_eq_take_append start path with ⟨count, added, followed, written⟩
  have short : (start.take count).length ≤ start.length := by
    rw [List.length_take]
    exact Nat.min_le_right _ _
  have tailOfAdded : tail = added.drop (start.length - (start.take count).length) := by
    calc tail = (start ++ tail).drop start.length := List.drop_left.symm
      _ = (start.take count ++ added).drop start.length := by rw [← below, followed]
      _ = _ := by rw [List.drop_append, List.drop_eq_nil_of_le short, List.nil_append]
  rw [tailOfAdded] at member
  exact written name (List.mem_of_mem_drop member)

/-! ## Spelling a place -/

theorem place_spell {names : List Text} (isPlace : IsPlace names) :
    place (spell names) = names := by
  rw [place, spell, show '/' :: Text.join ['/'] names = [] ++ '/' :: Text.join ['/'] names from rfl,
    follow_append_cons, follow_nil, follow_join_names [] isPlace, List.nil_append]

theorem isAbsolute_iff {path : Text} : isAbsolute path = true ↔ ∃ rest, path = '/' :: rest := by
  constructor
  · intro absolute
    rcases Text.startsWith_iff.mp absolute with ⟨rest, joined⟩
    exact ⟨rest, joined.symm⟩
  · rintro ⟨rest, rfl⟩
    rfl

@[simp] theorem isAbsolute_spell (names : List Text) : isAbsolute (spell names) = true := rfl

theorem concat_eq_spell {directory : Text} (absolute : isAbsolute directory = true)
    (parts : List Text) :
    concat (directory :: parts) = spell (parts.foldl follow (place directory)) := by
  rcases isAbsolute_iff.mp absolute with ⟨rest, rfl⟩
  have kept : ((('/' :: rest) :: parts).filter fun part => !part.isEmpty) =
      ('/' :: rest) :: parts.filter fun part => !part.isEmpty := rfl
  have dropped : ∀ (start : List Text),
      (parts.filter fun part => !part.isEmpty).foldl follow start = parts.foldl follow start := by
    induction parts with
    | nil => exact fun _ => rfl
    | cons part more inductionHypothesis =>
        intro start
        cases part with
        | nil =>
            rw [List.foldl_cons, follow_nil]
            exact inductionHypothesis rfl start
        | cons c name => exact inductionHypothesis rfl (follow start (c :: name))
  obtain ⟨tail, shape⟩ : ∃ tail, Text.join ['/']
      (('/' :: rest) :: parts.filter fun part => !part.isEmpty) = '/' :: tail := by
    cases parts.filter fun part => !part.isEmpty with
    | nil => exact ⟨rest, Text.join_singleton _ _⟩
    | cons second more => exact ⟨_, Text.join_cons_cons _ _ _ _⟩
  have followed := follow_join_parts [] ('/' :: rest) (parts.filter fun part => !part.isEmpty)
  rw [shape, List.foldl_cons, dropped] at followed
  rw [concat, kept, shape]
  exact congrArg spell followed

/-! ## The directory of a file -/

theorem isAbsolute_hostDir {file : Text} (absolute : isAbsolute file = true) :
    isAbsolute (hostDir file) = true := by
  rcases isAbsolute_iff.mp absolute with ⟨rest, rfl⟩
  obtain ⟨head, cut⟩ : ∃ head, Text.dropEndWhile (· != '/') ('/' :: rest) = '/' :: head :=
    Text.exists_dropEndWhile_cons '/' rest ⟨'/', List.mem_cons_self, rfl⟩
  have cutEq : ((('/' :: rest).reverse.dropWhile (· != '/')).reverse : Text) = '/' :: head := cut
  obtain ⟨directory, found⟩ : ∃ directory, parent ('/' :: rest) = '/' :: directory := by
    unfold parent
    rw [cutEq]
    by_cases slashes : ('/' :: head).all (· == '/') = true
    · exact ⟨head, if_pos slashes⟩
    · have stops : ∃ d ∈ '/' :: head, (d == '/') = false := by
        rcases List.all_eq_false.mp (Bool.eq_false_iff.mpr slashes) with ⟨d, member, differs⟩
        exact ⟨d, member, Bool.eq_false_iff.mpr differs⟩
      rcases Text.exists_dropEndWhile_cons '/' head stops with ⟨kept, trimmed⟩
      exact ⟨kept, (if_neg slashes).trans trimmed⟩
  unfold hostDir
  rw [found]
  rfl

theorem hostDir_eq_parent {file : Text} (absolute : isAbsolute file = true) :
    hostDir file = parent file := by
  by_cases bare : (parent file).isEmpty = true
  · have nowhere : hostDir file = here := if_pos bare
    have directory := isAbsolute_hostDir absolute
    rw [nowhere] at directory
    cases directory
  · exact if_neg bare

/-! ## Absolute spellings -/

theorem rootSlashes_of_isAbsolute {path : Text} (absolute : isAbsolute path = true) :
    ∃ slashes, rootSlashes path = slashes + 1 := by
  rcases isAbsolute_iff.mp absolute with ⟨rest, rfl⟩
  unfold rootSlashes
  split
  · exact ⟨0, rfl⟩
  · exact ⟨1, rfl⟩
  · exact ⟨0, rfl⟩
  · next notRooted => exact absurd rfl (notRooted rest)

theorem isAbsolute_tidy {path : Text} (absolute : isAbsolute path = true) :
    isAbsolute (tidy path) = true := by
  rcases rootSlashes_of_isAbsolute absolute with ⟨slashes, counted⟩
  rw [tidy, counted]
  rfl

theorem isAbsolute_under {directory : Text} (absolute : isAbsolute directory = true)
    (path : Text) : isAbsolute (under directory path) = true := by
  rcases isAbsolute_iff.mp absolute with ⟨rest, begins⟩
  unfold under
  split
  · next rooted => exact rooted
  · split
    · rw [begins]
      rfl
    · rw [begins]
      rfl

theorem isAbsolute_located {surroundings : Surroundings} {path found : Text}
    (absolute : isAbsolute surroundings.cwd = true)
    (located : Path.located surroundings path = .ok found) : isAbsolute found = true := by
  unfold Path.located at located
  cases expanded : expandHome surroundings (tidy path) with
  | error failure =>
      rw [expanded] at located
      cases located
  | ok whole =>
      rw [expanded] at located
      cases located
      exact isAbsolute_tidy (isAbsolute_under absolute whole)

/-! ## Paths that say something -/

theorem render_ne_nil (slashes : Nat) (names : List Text) : render slashes names ≠ [] := by
  rw [render]
  split
  · exact List.cons_ne_nil _ _
  · next written => exact fun empty => written (List.isEmpty_iff.mpr empty)

theorem concat_ne_nil (parts : List Text) : concat parts ≠ [] := by
  unfold concat
  dsimp only
  split
  · exact List.cons_ne_nil _ _
  · exact render_ne_nil _ _

end Path
end Crosslink

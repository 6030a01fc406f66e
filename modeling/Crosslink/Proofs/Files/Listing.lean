import Crosslink.Proofs.Files.Children
import Crosslink.Proofs.Files.Walk
import Crosslink.Proofs.Path.Track
import Mathlib.Data.List.MinMax

namespace Crosslink

/-!
Where the children of a directory lie.  Where all keys are absolute and begin with one slash, a
child lies right below its directory, and a subdirectory does not lie as deep as the deepest key.
-/

namespace Store

/-! ## Keys as places -/

/-- The keys of a store are absolute paths in normal form that begin with one slash. -/
structure Rooted (store : Store) : Prop where
  /-- The keys are in normal form. -/
  normal : ∀ key ∈ store.keys, ∃ path, key = Path.normalize path
  /-- The keys are absolute. -/
  absolute : ∀ key ∈ store.keys, Path.isAbsolute key = true
  /-- No key begins with two slashes. -/
  single : ∀ key ∈ store.keys, key.startsWith ['/', '/'] = false

variable {store : Store}

theorem Rooted.spelled (rooted : Rooted store) {key : Text} (member : key ∈ store.keys) :
    key = Path.spell (Path.place key) := by
  rcases rooted.normal key member with ⟨path, rfl⟩
  exact Path.normalize_eq_spell (rooted.absolute _ member) (rooted.single _ member)

def place (store : Store) (path : Text) : List Text :=
  Path.place (store.resolve path)

/-- The spelling of a place that begins with a directory leads there and on by the rest of it;
only the root itself leads nowhere from the root. -/
theorem place_of_below {names : List Text} (isPlace : Path.IsPlace names) {directory rest : Text}
    (begins : Path.spell names = below directory ++ rest) :
    rest = [] ∨
      names = Path.place directory ++ rest.splitOn '/' ∧ Path.IsPlace (rest.splitOn '/') := by
  have joined : Path.spell names = Text.dropEndWhile (· == '/') directory ++ '/' :: rest := by
    rw [begins, below, List.append_assoc, List.singleton_append]
  by_cases top : names = []
  · rw [top] at joined
    cases trimmed : Text.dropEndWhile (· == '/') directory with
    | nil =>
        rw [trimmed] at joined
        exact Or.inl (List.cons.inj joined).2.symm
    | cons c start =>
        rw [trimmed, List.cons_append] at joined
        have impossible := (List.cons.inj joined).2
        rw [show Text.join ['/'] [] = [] from rfl] at impossible
        exact absurd impossible.symm (List.append_ne_nil_of_right_ne_nil _ (List.cons_ne_nil _ _))
  · right
    have pieces : [] :: names =
        (Text.dropEndWhile (· == '/') directory).splitOn '/' ++ rest.splitOn '/' := by
      have cut := Text.splitOn_append_cons '/' [] (Text.join ['/'] names)
      rw [Text.splitOn_join top fun name member => (isPlace name member).whole] at cut
      rw [← Text.splitOn_append_cons, ← joined]
      exact cut.symm
    have tailPlace : Path.IsPlace (rest.splitOn '/') := by
      cases ahead : (Text.dropEndWhile (· == '/') directory).splitOn '/' with
      | nil => exact absurd ahead (Text.splitOn_ne_nil _ _)
      | cons first more =>
          rw [ahead, List.cons_append] at pieces
          intro name member
          refine isPlace name ?_
          rw [(List.cons.inj pieces).2]
          exact List.mem_append_right more member
    refine ⟨?_, tailPlace⟩
    rw [← Path.place_spell isPlace, joined, Path.place, Path.follow_append_cons,
      ← Path.place_dropEndWhile directory]
    rw [Path.follow, Path.foldl_push_names tailPlace, List.reverse_append, List.reverse_reverse,
      List.reverse_reverse]
    rfl

/-! ## The layout of a store -/

theorem isAbsolute_below_append {directory : Text} (nonempty : directory ≠ []) (rest : Text) :
    Path.isAbsolute (below directory ++ rest) = Path.isAbsolute directory := by
  have made : below directory ≠ [] := List.append_ne_nil_of_right_ne_nil _ (List.cons_ne_nil _ _)
  rw [Path.isAbsolute_append made, below]
  cases trimmed : Text.dropEndWhile (· == '/') directory with
  | nil =>
      have slashes := List.rdropWhile_eq_nil_iff.mp trimmed
      cases directory with
      | nil => exact absurd rfl nonempty
      | cons c more =>
          rw [beq_iff_eq.mp (slashes c List.mem_cons_self)]
          rfl
  | cons c start =>
      rcases List.rdropWhile_prefix (· == '/') directory with ⟨behind, joined⟩
      rw [← joined, show List.rdropWhile (· == '/') directory = c :: start from trimmed]
      rfl

theorem resolve_ne_nil (store : Store) (path : Text) : store.resolve path ≠ [] :=
  Path.render_ne_nil _ _

variable {directory : Text} {entries : List Entry} {entry : Entry}

/-- A child that a walk looks at is the next name on the way of a key, which goes on if the child
is a directory. -/
theorem Rooted.next_of_mem_list (rooted : Rooted store)
    (listed : store.list directory = .ok entries) (member : entry ∈ entries)
    (walks : entry.isDirectory = true ∨ entry.name.endsWith Files.markdownSuffix = true) :
    ∃ key ∈ store.keys, childOf? (below (store.resolve directory)) key = some entry ∧
      Path.IsName entry.name ∧ ∃ more,
        Path.place key = store.place directory ++ entry.name :: more ∧
          (entry.isDirectory = true → more ≠ []) := by
  rcases key_of_mem_list listed member with ⟨key, held, made⟩
  rcases childOf?_eq_some made with ⟨rest, joined, named, inside⟩
  rw [rooted.spelled held] at joined
  rcases place_of_below (Path.place_isPlace key) joined with ends | ⟨leads, tailPlace⟩
  · -- A key that is the root has no next name, and the entry it makes is not looked at.
    rw [ends] at named inside
    rcases walks with directoryEntry | markdown
    · rw [inside] at directoryEntry
      cases directoryEntry
    · rw [named] at markdown
      cases markdown
  · rcases Text.splitOn_eq_before_cons '/' rest with ⟨more, pieces, further⟩
    rw [pieces, ← named] at leads tailPlace
    refine ⟨key, held, made, tailPlace _ List.mem_cons_self, more, leads, ?_⟩
    rw [inside]
    exact further.mp

/-- A listed child lies right below its directory, and a subdirectory leads further. -/
theorem Rooted.place_of_mem_list (rooted : Rooted store)
    (listed : store.list directory = .ok entries) (member : entry ∈ entries)
    (walks : entry.isDirectory = true ∨ entry.name.endsWith Files.markdownSuffix = true) :
    store.place (Path.under directory entry.name) = store.place directory ++ [entry.name] ∧
      (entry.isDirectory = true → ∃ key ∈ store.keys,
        (store.place directory).length + 1 < (Path.place key).length) := by
  rcases rooted.next_of_mem_list listed member walks with
    ⟨key, held, made, isName, more, leads, further⟩
  constructor
  · rcases childOf?_eq_some made with ⟨rest, joined, _⟩
    have keyAbsolute := rooted.absolute key held
    rw [joined, isAbsolute_below_append (store.resolve_ne_nil directory)] at keyAbsolute
    have spelled := Path.isAbsolute_of_normalize keyAbsolute
    calc store.place (Path.under directory entry.name)
        = Path.place (Path.normalize (Path.under (Path.under store.cwd directory) entry.name)) := by
          rw [place, resolve, Path.absolute, Path.under_under _ _ isName.not_isAbsolute]
      _ = Path.place (Path.under store.cwd directory) ++ [entry.name] := by
          rw [Path.place_normalize (Path.isAbsolute_under spelled _), Path.place_under _ isName]
      _ = store.place directory ++ [entry.name] := by
          rw [place, resolve, Path.absolute, Path.place_normalize spelled]
  · intro inside
    refine ⟨key, held, ?_⟩
    have deeper := List.length_pos_iff.mpr (further inside)
    rw [leads, List.length_append, List.length_cons]
    omega

/-- A key has more components than its place has names. -/
theorem Rooted.length_place_lt_depth (rooted : Rooted store) {key : Text} (member : key ∈ store.keys) :
    (Path.place key).length < store.depth := by
  have counted : (key.splitOn '/').length ≤ store.depth := by
    rcases List.mem_map.mp member with ⟨entry, held, rfl⟩
    exact List.le_max_of_le' 0 (List.mem_map_of_mem held) (Nat.le_refl _)
  have isPlace := Path.place_isPlace key
  have pieces := Text.splitOn_append_cons '/' [] (Text.join ['/'] (Path.place key))
  rw [List.nil_append, show '/' :: Text.join ['/'] (Path.place key) = Path.spell (Path.place key)
    from rfl, ← rooted.spelled member] at pieces
  rw [pieces, List.length_append] at counted
  refine Nat.lt_of_lt_of_le ?_ counted
  by_cases top : Path.place key = []
  · rw [top]
    decide
  · rw [Text.splitOn_join top fun name among => (isPlace name among).whole]
    exact Nat.lt_add_of_pos_left (by decide)

/-- The paths of a rooted store have the places that are spelled by their keys. -/
theorem Rooted.layout (rooted : Rooted store) : Files.Layout store store.place where
  distinct := by
    intro directory entries listed
    exact (Ordered.of_list listed).nodup
  below := by
    intro directory entries entry listed member walks
    exact (rooted.place_of_mem_list listed member walks).1
  shallow := by
    intro directory entries entry listed member inside
    rcases (rooted.place_of_mem_list listed member (Or.inl inside)).2 inside with ⟨key, held, deeper⟩
    have counted : (Path.place key).length < store.depth := rooted.length_place_lt_depth held
    exact Nat.lt_trans (Nat.lt_of_succ_lt deeper) counted

/-- The files that a path names stand for keys of their own. -/
theorem Rooted.collect (rooted : Rooted store) {path : Text} {found : List Text}
    (collected : Files.collect store path = .ok found) : (found.map store.resolve).Nodup := by
  have distinct := rooted.layout.collect collected
  rw [show store.place = Path.place ∘ store.resolve from rfl, ← List.map_map] at distinct
  exact List.Nodup.of_map _ distinct

/-- A path names no files only if something is not there. -/
theorem Rooted.collect_eq_error (rooted : Rooted store) {path : Text} {failure : Failure}
    (stopped : Files.collect store path = .error failure) : failure.isAbsence = true := by
  rcases rooted.layout.collect_eq_error stopped with ⟨directory, unlisted⟩ | unknown
  · rw [list_eq_error unlisted]
    rfl
  · cases unknown

/-! ## Stores made from files -/

theorem mem_keys_put {path content key : Text} (member : key ∈ (store.put path content).keys) :
    key = store.resolve path ∨ key ∈ store.keys := by
  rw [← isSome_get?_iff, get?_put] at member
  by_cases same : key = store.resolve path
  · exact Or.inl same
  · rw [if_neg same] at member
    exact Or.inr (isSome_get?_iff.mp member)

/-- The keys of a store that is made from files are in normal form. -/
theorem normal_ofFiles (cwd : Text) (files : List (Text × Text)) (denied : List Text) :
    ∀ key ∈ (ofFiles cwd files denied).keys, ∃ path, key = Path.normalize path := by
  refine List.foldlRecOn
    (motive := fun store : Store => ∀ key ∈ store.keys, ∃ path, key = Path.normalize path) files _
    (fun _ impossible => absurd impossible List.not_mem_nil)
    fun store normal file _ key member => ?_
  rcases mem_keys_put member with same | held
  · exact ⟨_, same⟩
  · exact normal key held

end Store
end Crosslink

import Crosslink.Proofs.Files.Descent
import Crosslink.Proofs.Files.Listing
import Crosslink.Proofs.Path.Parent

namespace Crosslink
namespace Store

/-!
Paths as spellings of keys.  A store whose working directory is absolute keeps nothing but normal
forms, however it has been written to, and a normal form is its own key.  So all spellings of a path
read the text that was last written under one of them, other paths do not notice, and what is there
stays there.  The directories above a written path are there as well, although none of them is
stored: the key begins as every path below them does.
-/

/-- Write texts to paths, one after the other; a write that is denied changes nothing. -/
def writeAll (store : Store) (writes : List (Text × Text)) : Store :=
  writes.foldl (fun store entry => (store.write entry.1 entry.2).2) store

variable {store : Store}

/-! ## Stores that have been written to -/

/-- The keys have been resolved in an absolute working directory. -/
structure Filed (store : Store) : Prop where
  /-- The working directory is absolute. -/
  absolute : Path.isAbsolute store.cwd = true
  /-- Each key is that of some path. -/
  resolved : ∀ key ∈ store.keys, ∃ path, key = store.resolve path

theorem Filed.put (filed : Filed store) (path content : Text) : Filed (store.put path content) where
  absolute := filed.absolute
  resolved := by
    intro key member
    rcases mem_keys_put member with same | held
    · exact ⟨path, same⟩
    · exact filed.resolved key held

theorem Filed.write (filed : Filed store) (path content : Text) :
    Filed (store.write path content).2 := by
  by_cases denied : path ∈ store.denied
  · rw [write_of_mem_denied denied]
    exact filed
  · rw [write_of_not_mem_denied denied]
    exact ⟨filed.absolute, (filed.put path content).resolved⟩

theorem Filed.writeAll (filed : Filed store) (writes : List (Text × Text)) :
    Filed (store.writeAll writes) :=
  List.foldlRecOn writes _ filed fun _ kept entry _ => kept.write entry.1 entry.2

theorem filed_ofFiles {cwd : Text} (absolute : Path.isAbsolute cwd = true)
    (files : List (Text × Text)) (denied : List Text) : Filed (ofFiles cwd files denied) := by
  refine List.foldlRecOn files _ ⟨?_, ?_⟩ fun _ kept file _ => kept.put file.1 file.2
  · exact (Path.isAbsolute_normalize cwd).trans absolute
  · exact fun _ impossible => absurd impossible List.not_mem_nil

@[simp] theorem denied_ofFiles (cwd : Text) (files : List (Text × Text)) (denied : List Text) :
    (ofFiles cwd files denied).denied = denied :=
  List.foldlRecOn (motive := fun store : Store => store.denied = denied) files _ rfl
    fun _ kept _ _ => kept

@[simp] theorem denied_writeAll (store : Store) (writes : List (Text × Text)) :
    (store.writeAll writes).denied = store.denied := by
  refine List.foldlRecOn (motive := fun later : Store => later.denied = store.denied) writes _ rfl
    fun later kept entry _ => ?_
  by_cases denied : entry.1 ∈ later.denied
  · rw [write_of_mem_denied denied, kept]
  · rw [write_of_not_mem_denied denied]
    exact kept

theorem within_write (store : Store) (path content : Text) :
    Within store (store.write path content).2 := by
  by_cases denied : path ∈ store.denied
  · rw [write_of_mem_denied denied]
    exact ⟨rfl, fun _ member => member⟩
  · rw [write_of_not_mem_denied denied]
    exact ⟨rfl, (within_put store path content).keys⟩

@[simp] theorem resolve_write (store : Store) (path content : Text) :
    (store.write path content).2.resolve = store.resolve := by
  funext other
  rw [resolve, resolve, (within_write store path content).cwd]

theorem write_eq_ok {path : Text} (free : path ∉ store.denied) (content : Text) :
    store.write path content = (.ok (), (store.write path content).2) := by
  rw [write_of_not_mem_denied free]

theorem within_writeAll (store : Store) (writes : List (Text × Text)) :
    Within store (store.writeAll writes) := by
  refine List.foldlRecOn (motive := Within store) writes _ ⟨rfl, fun _ member => member⟩
    fun later within entry _ => ?_
  have step := within_write later entry.1 entry.2
  exact ⟨step.cwd.trans within.cwd, fun _ member => step.keys (within.keys member)⟩

/-! ## Keys -/

theorem resolve_resolve (absolute : Path.isAbsolute store.cwd = true) (path : Text) :
    store.resolve (store.resolve path) = store.resolve path := by
  have keyAbsolute : Path.isAbsolute (store.resolve path) = true :=
    Path.isAbsolute_absolute absolute path
  rw [resolve, Path.absolute, Path.under, if_pos keyAbsolute]
  exact Path.normalize_normalize _

/-- A key is written from one or two slashes and the names of its place, and the key of a name that
is read inside the path has one name more. -/
theorem exists_resolve_eq_render (absolute : Path.isAbsolute store.cwd = true) (path : Text) :
    ∃ slashes, slashes + 1 ≤ 2 ∧
      store.resolve path = Path.render (slashes + 1) (store.place path) ∧
      ∀ name, Path.IsName name → store.resolve (Path.under path name) =
        Path.render (slashes + 1) (store.place path ++ [name]) := by
  have spelled := Path.isAbsolute_under absolute path
  rcases Path.normalize_eq_render spelled with ⟨slashes, counted, written⟩
  have placed : store.place path = Path.place (Path.under store.cwd path) :=
    Path.place_normalize spelled
  refine ⟨slashes, counted ▸ Path.rootSlashes_le_two _, placed ▸ written, fun name isName => ?_⟩
  rcases Path.normalize_eq_render (Path.isAbsolute_under spelled name) with
    ⟨also, counted', written'⟩
  rw [Path.under_eq_append _ isName.not_isAbsolute,
    Path.rootSlashes_slashed_append _ isName.not_isAbsolute, counted] at counted'
  rw [resolve, Path.absolute, Path.under_under _ _ isName.not_isAbsolute, written', ← counted',
    Path.place_under _ isName, placed]

theorem present_above (absolute : Path.isAbsolute store.cwd = true) {path : Text}
    (held : store.resolve path ∈ store.keys) (steps : Nat) :
    store.present (Path.parent^[steps] (store.resolve path)) = true := by
  rcases exists_resolve_eq_render absolute path with ⟨slashes, few, written, _⟩
  have isPlace : Path.IsPlace (store.place path) := Path.place_isPlace _
  rw [written] at held ⊢
  rcases Path.exists_iterate_parent_render isPlace.isStep slashes steps with
    ⟨front, ⟨more, joined⟩, led⟩
  rw [← joined] at held isPlace
  have frontPlace := isPlace.of_append
  rw [led, present, store.resolve_render frontPlace few, Bool.or_eq_true]
  by_cases whole : more = []
  · rw [whole, List.append_nil] at held
    exact Or.inl (isSome_get?_iff.mpr held)
  · exact Or.inr (isDirectory_of_below held
      (below_render_isPrefix frontPlace.isStep slashes whole))

/-! ## Reading what was written -/

theorem read_write {path : Text} (free : path ∉ store.denied) (content other : Text) :
    (store.write path content).2.read other =
      if store.resolve other = store.resolve path then .ok content else store.read other := by
  split
  · next same =>
      rw [read_eq_ok_iff, resolve_write, same]
      exact get?_of_write_eq_ok (write_eq_ok free content)
  · next different =>
      refine read_congr (within_write store path content).cwd ?_
      rw [resolve_write]
      exact get?_write_of_ne different content

/-- However a store has been written to, its paths are spellings of its keys: what is there stays
there, a write is read back under every spelling of its path and under no other, and with it all
directories above are there. -/
theorem write_spelled {cwd : Text} (absolute : Path.isAbsolute cwd = true)
    (files : List (Text × Text)) (denied : List Text) (writes : List (Text × Text)) {path : Text}
    (free : path ∉ denied) (content : Text) :
    let store := (ofFiles cwd files denied).writeAll writes
    (∀ other, store.resolve (store.resolve other) = store.resolve other) ∧
      (∀ more other, store.present other = true → (store.writeAll more).present other = true) ∧
      ∃ next, store.write path content = (.ok (), next) ∧
        (∀ other, next.read other =
          if store.resolve other = store.resolve path then .ok content else store.read other) ∧
        next.present path = true ∧
        ∀ steps, next.present (Path.parent^[steps] (store.resolve path)) = true := by
  intro store
  have filed : Filed store := (filed_ofFiles absolute files denied).writeAll writes
  have allowed : path ∉ store.denied := by
    rw [denied_writeAll, denied_ofFiles]
    exact free
  have succeeded := write_eq_ok allowed content
  have held : (store.write path content).2.resolve path ∈ (store.write path content).2.keys := by
    rw [resolve_write, ← isSome_get?_iff, get?_of_write_eq_ok succeeded]
    rfl
  refine ⟨resolve_resolve filed.absolute,
    fun more other there => (within_writeAll store more).present there, _, succeeded,
    read_write allowed content, ?_, fun steps => ?_⟩
  · rw [present, Bool.or_eq_true]
    exact Or.inl (isSome_get?_iff.mpr held)
  · rw [← resolve_write store path content]
    exact present_above (filed.write path content).absolute held steps

/-- A file above the working directory that is written again under another spelling, beside a file
whose path begins with two slashes. -/
theorem write_spelled_climbing :
    let store := (ofFiles "/w/d" [("../a.md", "first")] []).writeAll [("//w/./a.md", "other")]
    Path.isAbsolute "/w/d" = true ∧ ("x/..//../a.md" : Text) ∉ ([] : List Text) ∧
      store.read "/w/a.md" = .ok "first" ∧
      ∃ next, store.write "x/..//../a.md" "second" = (.ok (), next) ∧
        next.read "/w/a.md" = .ok "second" ∧ next.read "//w/a.md" = .ok "other" ∧
        next.present "/w" = true ∧ next.present "/" = true := by
  intro store
  have absolute : Path.isAbsolute "/w/d" = true := by decide
  have free : ("x/..//../a.md" : Text) ∉ ([] : List Text) := List.not_mem_nil
  rcases write_spelled absolute [("../a.md", "first")] [] [("//w/./a.md", "other")] free "second"
    with ⟨_, _, next, written, reads, _, above⟩
  refine ⟨absolute, free, by decide +kernel, next, written, ?_, ?_, above 1, above 2⟩
  · exact (reads "/w/a.md").trans (if_pos (by decide +kernel))
  · exact (reads "//w/a.md").trans ((if_neg (by decide +kernel)).trans (by decide +kernel))

end Store
end Crosslink

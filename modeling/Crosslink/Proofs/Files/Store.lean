import Crosslink.Files.Store
import Crosslink.Proofs.Data.Entries

namespace Crosslink
namespace Store

/-!
What writing to a store changes.  A store says that a path is there by its keys alone, so a
write to a path that can be read changes neither what is there nor how paths are resolved: all
that changes is one text.
-/

def keys (store : Store) : List Text :=
  store.entries.map (·.1)

theorem setEntry_eq_set (key content : Text) (entries : List (Text × Text)) :
    setEntry key content entries = Entries.set key content entries := by
  induction entries with
  | nil => rfl
  | cons entry rest inductionHypothesis => rw [setEntry, Entries.set, inductionHypothesis]

@[simp] theorem get?_put (store : Store) (path content key : Text) :
    (store.put path content).get? key =
      if key = store.resolve path then some content else store.get? key := by
  rw [get?, put, setEntry_eq_set]
  exact Entries.lookup_set _ _ _ _

theorem isSome_get?_iff {store : Store} {key : Text} :
    (store.get? key).isSome = true ↔ key ∈ store.keys :=
  Entries.isSome_lookup_iff

theorem keys_put {store : Store} {path : Text} (held : store.resolve path ∈ store.keys)
    (content : Text) : (store.put path content).keys = store.keys := by
  rw [keys, put, setEntry_eq_set]
  exact Entries.keys_set held content

theorem read_eq_ok_iff {store : Store} {path content : Text} :
    store.read path = .ok content ↔ store.get? (store.resolve path) = some content := by
  unfold read
  cases store.get? (store.resolve path) with
  | none =>
      constructor
      · intro impossible
        cases impossible
      · intro impossible
        cases impossible
  | some found =>
      constructor
      · intro same
        rw [Except.ok.inj same]
      · intro same
        rw [Option.some.inj same]

theorem read_congr {store other : Store} {path : Text} (cwd : store.cwd = other.cwd)
    (same : store.get? (store.resolve path) = other.get? (store.resolve path)) :
    store.read path = other.read path := by
  have resolved : other.resolve path = store.resolve path := by rw [resolve, resolve, cwd]
  rw [read, read, same, resolved]

/-! ## What is there -/

theorem isDirectory_eq (store : Store) (key : Text) :
    store.isDirectory key =
      if key = ['/'] then !store.keys.isEmpty else store.keys.any (·.startsWith (below key)) := by
  rw [isDirectory, keys, List.isEmpty_map, List.any_map]
  rfl

/-- Two stores with the same keys resolve and find the same paths, and deny the same writes. -/
structure Alike (store other : Store) : Prop where
  /-- Relative paths are read in the same directory. -/
  cwd : other.cwd = store.cwd
  /-- The same paths must not be written. -/
  denied : other.denied = store.denied
  /-- The same keys are stored. -/
  keys : other.keys = store.keys

namespace Alike

variable {store other more : Store}

theorem refl (store : Store) : Alike store store := ⟨rfl, rfl, rfl⟩

theorem trans (first : Alike store other) (second : Alike other more) : Alike store more :=
  ⟨second.cwd.trans first.cwd, second.denied.trans first.denied, second.keys.trans first.keys⟩

theorem resolve (alike : Alike store other) : other.resolve = store.resolve := by
  funext path
  rw [Store.resolve, Store.resolve, alike.cwd]

theorem isDirectory (alike : Alike store other) : other.isDirectory = store.isDirectory := by
  funext key
  rw [isDirectory_eq, isDirectory_eq, alike.keys]

/-- What is there is a matter of keys. -/
theorem present (alike : Alike store other) : other.present = store.present := by
  funext path
  have same : (other.get? (store.resolve path)).isSome = (store.get? (store.resolve path)).isSome :=
    Bool.eq_iff_iff.mpr (by rw [isSome_get?_iff, isSome_get?_iff, alike.keys])
  rw [Store.present, Store.present, alike.resolve, alike.isDirectory, same]

end Alike

/-! ## More files -/

/-- Every file of a store is a file of the other, whatever the two hold in it. -/
structure Within (store larger : Store) : Prop where
  /-- Relative paths are read in the same directory. -/
  cwd : larger.cwd = store.cwd
  /-- The keys of the one are keys of the other. -/
  keys : store.keys ⊆ larger.keys

/-- What is there stays there as files are added. -/
theorem Within.present {store larger : Store} (within : Within store larger) {path : Text}
    (there : store.present path = true) : larger.present path = true := by
  have resolved : larger.resolve path = store.resolve path := by
    rw [resolve, resolve, within.cwd]
  rw [Store.present, Bool.or_eq_true] at there ⊢
  rw [resolved]
  rcases there with held | inside
  · exact Or.inl (isSome_get?_iff.mpr (within.keys (isSome_get?_iff.mp held)))
  · refine Or.inr ?_
    rw [isDirectory_eq] at inside ⊢
    split at inside
    · next root =>
        rw [if_pos root]
        rw [Bool.not_eq_true', List.isEmpty_eq_false_iff_exists_mem] at inside ⊢
        rcases inside with ⟨key, member⟩
        exact ⟨key, within.keys member⟩
    · next below =>
        rw [if_neg below]
        rcases List.any_eq_true.mp inside with ⟨key, member, begins⟩
        exact List.any_eq_true.mpr ⟨key, within.keys member, begins⟩

theorem within_put (store : Store) (path content : Text) : Within store (store.put path content) where
  cwd := rfl
  keys := by
    intro key member
    rw [← isSome_get?_iff] at member ⊢
    rw [get?_put]
    split
    · rfl
    · exact member

/-! ## Writing -/

theorem write_of_mem_denied {store : Store} {path : Text} (denied : path ∈ store.denied)
    (content : Text) : store.write path content = (.error (.denied path), store) :=
  if_pos denied

theorem write_of_not_mem_denied {store : Store} {path : Text} (free : path ∉ store.denied)
    (content : Text) :
    store.write path content =
      (.ok (), { store.put path content with written := store.resolve path :: store.written }) :=
  if_neg free

theorem Alike.fst_write {store other : Store} (alike : Alike store other) (path content : Text) :
    (other.write path content).1 = (store.write path content).1 := by
  by_cases denied : path ∈ store.denied
  · rw [write_of_mem_denied denied, write_of_mem_denied (alike.denied ▸ denied)]
  · rw [write_of_not_mem_denied denied, write_of_not_mem_denied (alike.denied ▸ denied)]

/-- A write changes the text of its own key at most. -/
theorem get?_write_of_ne {store : Store} {path key : Text} (different : key ≠ store.resolve path)
    (content : Text) : (store.write path content).2.get? key = store.get? key := by
  by_cases denied : path ∈ store.denied
  · rw [write_of_mem_denied denied]
  · rw [write_of_not_mem_denied denied]
    exact (get?_put store path content key).trans (if_neg different)

theorem get?_of_write_eq_ok {store next : Store} {path content : Text}
    (written : store.write path content = (.ok (), next)) :
    next.get? (store.resolve path) = some content := by
  by_cases denied : path ∈ store.denied
  · rw [write_of_mem_denied denied] at written
    cases written
  · rw [write_of_not_mem_denied denied] at written
    cases written
    exact (get?_put store path content _).trans (if_pos rfl)

theorem eq_of_write_eq_error {store next : Store} {path content : Text} {failure : Failure}
    (stopped : store.write path content = (.error failure, next)) : next = store := by
  by_cases denied : path ∈ store.denied
  · rw [write_of_mem_denied denied] at stopped
    cases stopped
    rfl
  · rw [write_of_not_mem_denied denied] at stopped
    cases stopped

theorem alike_write {store : Store} {path : Text} (held : store.resolve path ∈ store.keys)
    (content : Text) : Alike store (store.write path content).2 := by
  by_cases denied : path ∈ store.denied
  · rw [write_of_mem_denied denied]
    exact Alike.refl store
  · rw [write_of_not_mem_denied denied]
    exact ⟨rfl, rfl, keys_put held content⟩

end Store
end Crosslink

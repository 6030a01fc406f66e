import Crosslink.Proofs.Files.Listing
import Crosslink.Proofs.Path.Settled

namespace Crosslink
namespace Store

/-!
The files that a path names in any store.  Keys may be relative, they may climb, and they may
begin with two slashes; still a listed child is put behind the names of its directory, or stands
for the directory itself, as the nameless child of the root does where keys begin with two
slashes.
-/

variable {store : Store}

def address (store : Store) (path : Text) : List Text :=
  Path.address (store.resolve path)

theorem track_below_append (directory rest : Text) :
    Path.track (below directory ++ rest) = Path.track directory ++ Path.track rest := by
  rw [below, List.append_assoc, List.singleton_append, Path.track_append_cons,
    Path.track_dropEndWhile]

theorem exists_track_of_childOf? {key directory : Text} {child : Entry}
    (made : childOf? (below directory) key = some child) (leads : ¬ Files.IsIdle child.name) :
    Path.IsStep child.name ∧
      ∃ more, Path.track key = Path.track directory ++ [child.name] ++ more := by
  rcases childOf?_eq_some made with ⟨rest, rfl, named, _⟩
  rcases Text.splitOn_eq_before_cons '/' rest with ⟨more, pieces, _⟩
  rw [← named] at pieces
  have isStep : Path.IsStep child.name :=
    ⟨fun empty => leads (Or.inl empty), fun here => leads (Or.inr here),
      named ▸ Text.not_mem_before '/' rest⟩
  have kept : child.name.isEmpty = false :=
    Bool.eq_false_iff.mpr fun empty => isStep.nonempty (List.isEmpty_iff.mp empty)
  have ahead : Path.names rest = child.name :: more.filter fun name => !name.isEmpty := by
    rw [Path.names, pieces]
    exact List.filter_cons_of_pos (by rw [kept]; rfl)
  obtain ⟨further, onward⟩ : ∃ further, Path.track rest = child.name :: further := by
    rw [Path.track, ahead]
    exact ⟨_, List.filter_cons_of_pos (bne_iff_ne.mpr isStep.notHere)⟩
  exact ⟨isStep, further, by rw [track_below_append, onward, List.append_cons]⟩

/-- A directory that is read inside itself is the directory. -/
theorem resolve_under_of_isIdle (store : Store) (directory : Text) {name : Text}
    (idle : Files.IsIdle name) : store.resolve (Path.under directory name) = store.resolve directory := by
  have relative : Path.isAbsolute name = false ∧ Path.track name = [] := by
    rcases idle with rfl | rfl <;> decide
  rw [resolve, resolve, Path.absolute, Path.absolute, Path.under_under _ _ relative.1,
    Path.normalize_under_of_track_nil _ relative.1 relative.2]

/-- A listed child lies right below its directory unless it stands for it. -/
theorem address_of_mem_list (normal : ∀ key ∈ store.keys, ∃ path, key = Path.normalize path)
    {directory : Text} {entries : List Entry} {entry : Entry}
    (listed : store.list directory = .ok entries) (member : entry ∈ entries)
    (leads : ¬ Files.IsIdle entry.name) :
    store.address (Path.under directory entry.name) = store.address directory ++ [entry.name] := by
  rcases key_of_mem_list listed member with ⟨key, held, made⟩
  rcases exists_track_of_childOf? made leads with ⟨isStep, more, further⟩
  rcases normal key held with ⟨path, spelled⟩
  -- The names of the key are settled, so those up to the child are settled together.
  have settled := Path.isSettled_track_normalize path
  rcases childOf?_eq_some made with ⟨rest, joined, _⟩
  rw [← spelled, further] at settled
  rw [joined, isAbsolute_below_append (store.resolve_ne_nil directory), resolve, Path.absolute,
    Path.isAbsolute_normalize] at settled
  rw [address, address, resolve, resolve, Path.absolute, Path.absolute,
    Path.under_under _ _ isStep.not_isAbsolute]
  exact Path.address_normalize_under _ isStep settled.of_append

/-- Whatever a store holds, the children of a directory lie right below it or stand for it. -/
theorem spread_of_normal (normal : ∀ key ∈ store.keys, ∃ path, key = Path.normalize path) :
    Files.Spread store store.address where
  distinct := by
    intro directory entries listed
    exact (Ordered.of_list listed).nodup
  below listed member leads := address_of_mem_list normal listed member leads
  idle := by
    intro directory name entries idle listed
    change store.list directory = .ok entries at listed
    change store.list (Path.under directory name) = .ok entries
    simp only [list, store.resolve_under_of_isIdle directory idle] at listed ⊢
    split at listed
    · next there => exact (if_pos there).trans listed
    · cases listed

/-- The files that a path names stand for keys of their own. -/
theorem nodup_collect (normal : ∀ key ∈ store.keys, ∃ path, key = Path.normalize path) {path : Text}
    {found : List Text} (collected : Files.collect store path = .ok found) :
    (found.map store.resolve).Nodup := by
  have distinct := (spread_of_normal normal).collect collected
  rw [show store.address = Path.address ∘ store.resolve from rfl, ← List.map_map] at distinct
  exact List.Nodup.of_map _ distinct

end Store
end Crosslink

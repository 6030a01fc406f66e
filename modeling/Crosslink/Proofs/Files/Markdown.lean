import Crosslink.Proofs.Files.Descent
import Crosslink.Proofs.Files.Listing

namespace Crosslink

/-!
The markdown files below a directory of a store.  A directory is there only as the beginning of
keys, and it is listed level by level; where no key is also a directory of another, listings lead
from a directory to exactly the keys below it.  A walk comes to its end, finds each of these keys
that is a markdown file, and finds them in the order of their components.  That is not the order
of the keys as texts: what lies in a directory comes before a file whose name is that of the
directory with a suffix behind it.
-/

namespace Files

/-- Places that part at names in order are in order. -/
theorem PartBy.lt {first second : List Text} (parts : PartBy (· < ·) first second) :
    first < second := by
  rcases parts with ⟨start, name, other, ⟨behind, rfl⟩, ⟨behind', rfl⟩, earlier⟩
  rw [List.append_assoc, List.append_assoc]
  exact List.append_left_lt (List.cons_lt_cons_iff.mpr (Or.inl earlier))

end Files

namespace Store

variable {store : Store} {names : List Text}

/-! ## Directories of a store with one root -/

theorem resolve_spell (store : Store) (isPlace : Path.IsPlace names) :
    store.resolve (Path.spell names) = Path.spell names := by
  have few : 0 + 1 ≤ 2 := by decide
  exact store.resolve_render isPlace few

theorem under_spell (isPlace : Path.IsPlace names) {name : Text} (isName : Path.IsName name) :
    Path.under (Path.spell names) name = Path.spell (names ++ [name]) :=
  Path.under_render isPlace.isStep 0 isName.not_isAbsolute

theorem below_spell_append (isPlace : Path.IsPlace names) (name : Text) :
    below (Path.spell names) ++ name = Path.spell (names ++ [name]) := by
  have slash : below (Path.spell names) = _ := below_render isPlace.isStep 0
  have written : Path.spell (names ++ [name]) = _ := Path.render_concat 0 names name
  rw [slash, written]
  split
  · rfl
  · rw [List.append_assoc]
    rfl

theorem below_spell (isPlace : Path.IsPlace names) (onward : names ≠ []) :
    below (Path.spell names) = Path.spell names ++ ['/'] := by
  have slash : below (Path.spell names) = _ := below_render isPlace.isStep 0
  rw [slash, if_neg onward]
  rfl

theorem Rooted.resolve_of_mem (rooted : Rooted store) {key : Text} (member : key ∈ store.keys) :
    store.resolve key = key := by
  rw [rooted.spelled member]
  exact store.resolve_spell (Path.place_isPlace key)

/-- A key lies below the directories that it goes through. -/
theorem Rooted.below_isPrefix (rooted : Rooted store) {key : Text} (member : key ∈ store.keys)
    {more : List Text} (further : more ≠ []) (lies : Path.place key = names ++ more) :
    below (Path.spell names) <+: key := by
  have isPlace : Path.IsPlace names := (lies ▸ Path.place_isPlace key).of_append
  rw [rooted.spelled member, lies]
  exact below_render_isPrefix isPlace.isStep 0 further

variable {entries : List Entry} {entry : Entry}

/-- A child that a walk looks at is the next name on the way of a key, which goes on if the child
is a directory and ends there if it is not. -/
theorem Rooted.exists_key (rooted : Rooted store) (isPlace : Path.IsPlace names)
    (listed : store.list (Path.spell names) = .ok entries) (member : entry ∈ entries)
    (walks : entry.isDirectory = true ∨ entry.name.endsWith Files.markdownSuffix = true) :
    Path.IsPlace (names ++ [entry.name]) ∧ ∃ key ∈ store.keys,
      (entry.isDirectory = true →
        ∃ more, more ≠ [] ∧ Path.place key = names ++ [entry.name] ++ more) ∧
      (entry.isDirectory = false → key = Path.spell (names ++ [entry.name])) := by
  rcases rooted.next_of_mem_list listed member walks with
    ⟨key, held, made, _, more, leads, further⟩
  rw [store.resolve_spell isPlace] at made
  rw [place, store.resolve_spell isPlace, Path.place_spell isPlace, List.append_cons] at leads
  have deeper : Path.IsPlace (names ++ [entry.name]) := (leads ▸ Path.place_isPlace key).of_append
  refine ⟨deeper, key, held, fun inside => ⟨more, further inside, leads⟩, fun flat => ?_⟩
  have ends := (childOf?_eq_some_iff.mp made).2
  rw [if_neg (Bool.eq_false_iff.mp flat), below_spell_append isPlace] at ends
  exact ends

/-! ## What listings lead to -/

/-- No key is a directory of another. -/
def Apart (store : Store) : Prop :=
  ∀ key ∈ store.keys, ∀ other ∈ store.keys, other.startsWith (key ++ ['/']) = false

instance (store : Store) : Decidable (Apart store) :=
  inferInstanceAs (Decidable (∀ key ∈ store.keys, ∀ other ∈ store.keys, _ = false))

def IsMarkdownBelow (names : List Text) (key : Text) : Prop :=
  ∃ middle name, Path.place key = names ++ (middle ++ [name]) ∧
    name.endsWith Files.markdownSuffix = true

theorem Rooted.mem_keys_of_leadsTo (rooted : Rooted store) (isPlace : Path.IsPlace names)
    {file : Text} (leads : Files.LeadsTo store (Path.spell names) file) :
    file ∈ store.keys ∧ IsMarkdownBelow names file := by
  generalize begun : Path.spell names = directory at leads
  induction leads generalizing names with
  | @child directory entries entry listed member flat markdown =>
      rw [← begun] at listed ⊢
      rcases rooted.exists_key isPlace listed member (Or.inr markdown) with
        ⟨deeper, key, held, _, ends⟩
      have isName := deeper entry.name (List.mem_append_right names List.mem_cons_self)
      rw [under_spell isPlace isName, ← ends flat]
      refine ⟨held, [], entry.name, ?_, markdown⟩
      rw [ends flat, Path.place_spell deeper, List.nil_append]
  | @through directory file entries entry listed member inside _ inductionHypothesis =>
      rw [← begun] at listed inductionHypothesis
      rcases rooted.exists_key isPlace listed member (Or.inl inside) with ⟨deeper, _⟩
      have isName := deeper entry.name (List.mem_append_right names List.mem_cons_self)
      rcases inductionHypothesis deeper (under_spell isPlace isName).symm with
        ⟨held, middle, name, lies, markdown⟩
      refine ⟨held, entry.name :: middle, name, ?_, markdown⟩
      rw [lies, List.append_assoc]
      rfl

theorem isPlace_of_place_eq {key name : Text} {more : List Text}
    (lies : Path.place key = names ++ name :: more) : Path.IsPlace names ∧ Path.IsName name := by
  have whole : Path.IsPlace (names ++ name :: more) := lies ▸ Path.place_isPlace key
  exact ⟨whole.of_append, whole name (List.mem_append_right names List.mem_cons_self)⟩

/-- A directory through which a key goes is listed with the next name of the key. -/
theorem Rooted.exists_entry (rooted : Rooted store) (apart : Apart store) {key : Text}
    (held : key ∈ store.keys) {name : Text} {more : List Text}
    (lies : Path.place key = names ++ name :: more) :
    ∃ entries, store.list (Path.spell names) = .ok entries ∧
      ⟨name, !more.isEmpty⟩ ∈ entries := by
  rcases isPlace_of_place_eq lies with ⟨isPlace, isName⟩
  have there : store.isDirectory (store.resolve (Path.spell names)) = true := by
    rw [store.resolve_spell isPlace]
    exact isDirectory_of_below held (rooted.below_isPrefix held (List.cons_ne_nil name more) lies)
  rcases exists_list_iff.mpr there with ⟨entries, listed⟩
  refine ⟨entries, listed, (mem_list_iff listed).mpr ⟨isName.whole, ?_⟩⟩
  rw [store.resolve_spell isPlace, below_spell_append isPlace]
  cases more with
  | nil =>
      have ends : Path.spell (names ++ [name]) = key := by rw [← lies, ← rooted.spelled held]
      rw [ends]
      refine ⟨Or.inl held, fun impossible => absurd impossible Bool.false_ne_true, ?_⟩
      rintro ⟨other, among, begins⟩
      rw [← Text.startsWith_iff, apart key held other among] at begins
      cases begins
  | cons second rest =>
      rw [List.append_cons] at lies
      have onward : below (Path.spell (names ++ [name])) <+: key :=
        rooted.below_isPrefix held (List.cons_ne_nil second rest) lies
      rw [below_spell (isPlace_of_place_eq lies).1 (List.concat_ne_nil name names)] at onward
      exact ⟨Or.inr ⟨key, held, onward⟩, fun _ => ⟨key, held, onward⟩, fun _ => rfl⟩

theorem Rooted.leadsTo_of_mem_keys (rooted : Rooted store) (apart : Apart store) {file : Text}
    (held : file ∈ store.keys) (below : IsMarkdownBelow names file) :
    Files.LeadsTo store (Path.spell names) file := by
  rcases below with ⟨middle, name, lies, markdown⟩
  -- The names in between are those of subdirectories, each listed in the one before.
  induction middle generalizing names with
  | nil =>
      rcases isPlace_of_place_eq lies with ⟨isPlace, isName⟩
      rcases rooted.exists_entry apart held lies with ⟨entries, listed, member⟩
      have leads : Files.LeadsTo store _ _ := .child listed member rfl markdown
      rw [under_spell isPlace isName] at leads
      rw [rooted.spelled held, lies]
      exact leads
  | cons first rest inductionHypothesis =>
      rcases isPlace_of_place_eq lies with ⟨isPlace, isName⟩
      rcases rooted.exists_entry apart held lies with ⟨entries, listed, member⟩
      rw [List.cons_append, List.append_cons] at lies
      refine .through listed member (by simp) ?_
      rw [under_spell isPlace isName]
      exact inductionHypothesis lies

/-! ## The walk -/

/-- A walk from a directory of the store comes to its end, and with no more levels than any key has
components. -/
theorem Rooted.exists_walk (rooted : Rooted store) (isPlace : Path.IsPlace names)
    (there : store.isDirectory (Path.spell names) = true) :
    ∃ found, Files.walk store (Path.spell names) = .ok found := by
  let Holds (path : Text) : Prop :=
    ∃ names, Path.IsPlace names ∧ path = Path.spell names ∧ store.isDirectory path = true
  have inherited {directory : Text} {entries : List Entry} {entry : Entry} (holds : Holds directory)
      (listed : store.list directory = .ok entries) (member : entry ∈ entries)
      (inside : entry.isDirectory = true) : Holds (Path.under directory entry.name) := by
    rcases holds with ⟨names, isPlace, rfl, _⟩
    rcases rooted.exists_key isPlace listed member (Or.inl inside) with ⟨deeper, key, held, goes, _⟩
    rcases goes inside with ⟨more, further, lies⟩
    have isName := deeper entry.name (List.mem_append_right names List.mem_cons_self)
    rw [under_spell isPlace isName]
    exact ⟨_, deeper, rfl, isDirectory_of_below held (rooted.below_isPrefix held further lies)⟩
  cases walked : Files.walk store (Path.spell names) with
  | ok found => exact ⟨found, rfl⟩
  | error failure =>
      rcases rooted.layout.exists_unlisted Holds inherited (Nat.succ_ne_zero _) (by omega)
        ⟨names, isPlace, rfl, there⟩ walked with ⟨path, ⟨names, isPlace, rfl, inside⟩, unlisted⟩
      rw [← store.resolve_spell isPlace] at inside
      rcases exists_list_iff.mpr inside with ⟨entries, listed⟩
      cases listed.symm.trans unlisted

/-- A walk from a directory of a store in which no key is a directory of another comes to its end,
finds exactly the markdown files below the directory, and finds them in the order of their
components; more levels than any key has components change nothing. -/
theorem walk_markdown (rooted : Rooted store) (apart : Apart store) {directory : Text}
    (normal : Path.normalize directory = directory) (absolute : Path.isAbsolute directory = true)
    (single : directory.startsWith ['/', '/'] = false)
    (there : store.isDirectory directory = true) :
    ∃ found, Files.walk store directory = .ok found ∧
      (∀ levels, store.depth < levels → Files.walkWithin store levels directory = .ok found) ∧
      (∀ file, file ∈ found ↔ file ∈ store.keys ∧ IsMarkdownBelow (Path.place directory) file) ∧
      found.Pairwise fun first second => Path.place first < Path.place second := by
  have isPlace := Path.place_isPlace directory
  have spelled : directory = Path.spell (Path.place directory) := by
    rw [← normal] at absolute single
    have written := Path.normalize_eq_spell absolute single
    rw [normal] at written
    exact written
  rw [spelled] at there
  rcases rooted.exists_walk isPlace there with ⟨found, walked⟩
  rw [← spelled] at walked
  have member_iff (file : Text) :
      file ∈ found ↔ file ∈ store.keys ∧ IsMarkdownBelow (Path.place directory) file := by
    rw [Files.mem_walkWithin_iff walked]
    constructor
    · intro leads
      rw [spelled] at leads
      exact rooted.mem_keys_of_leadsTo isPlace leads
    · rintro ⟨held, below⟩
      have leads := rooted.leadsTo_of_mem_keys apart held below
      rw [← spelled] at leads
      exact leads
  refine ⟨found, walked, fun levels more => Files.walkWithin_mono walked more, member_iff, ?_⟩
  have parts : (found.map store.place).Pairwise (Files.PartBy (· < ·)) :=
    (Files.pairwise_walkWithin (fun listed => List.pairwise_map.mpr (Ordered.of_list listed))
      (fun _ listed member looked => rooted.layout.below listed member looked) walked).1
  refine (List.pairwise_map.mp parts).imp_of_mem fun inFirst inSecond apart => ?_
  have ordered := apart.lt
  rw [place, place, rooted.resolve_of_mem ((member_iff _).mp inFirst).1,
    rooted.resolve_of_mem ((member_iff _).mp inSecond).1] at ordered
  exact ordered

/-- A directory whose name is that of a markdown file, beside a file whose path as a text comes
before its own. -/
theorem walk_markdown_named_alike :
    let store := ofFiles "/w" [("/d/a.md.md", []), ("/d/z.txt", []), ("../d/b/y.md", []),
      ("/d/a.md/x.md", []), ("e.md", [])] []
    let found : List Text := ["/d/a.md/x.md", "/d/a.md.md", "/d/b/y.md"]
    Files.walk store "/d" = .ok found ∧
      (∀ levels, store.depth < levels → Files.walkWithin store levels "/d" = .ok found) ∧
      (∀ file, file ∈ found ↔ file ∈ store.keys ∧ IsMarkdownBelow ["d"] file) ∧
      (found.Pairwise fun first second => Path.place first < Path.place second) ∧
      ("/d/a.md.md" : Text) < "/d/a.md/x.md" := by
  intro store found
  have rooted : Rooted store :=
    ⟨normal_ofFiles _ _ _, by decide +kernel, by decide +kernel⟩
  have apart : Apart store := by decide +kernel
  rcases @walk_markdown store rooted apart "/d" (by decide +kernel) (by decide +kernel)
    (by decide +kernel) (by decide +kernel) with ⟨listed, walked, deeper, member_iff, ordered⟩
  have same : Files.walk store "/d" = .ok found := by decide +kernel
  cases same.symm.trans walked
  exact ⟨same, deeper, member_iff, ordered, by decide⟩

end Store
end Crosslink

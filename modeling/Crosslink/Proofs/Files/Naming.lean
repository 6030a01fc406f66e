import Crosslink.Proofs.Files.Address
import Crosslink.Proofs.Files.Spelling

namespace Crosslink
namespace Store

/-!
The names that a directory is listed with.  They are in order and none holds a slash, but not every
one is the name of a child.  The root with one slash counts a key that begins with two slashes, or
that is the root itself, as something below it, and lists it without a name; the root with two
slashes lists what lies below the root with one.  These are the only ways to go wrong: in every
other directory, and in the root with one slash as long as there are no such keys, each entry
stands for a child that is there, lies one name deeper, and is a directory exactly if keys lie
below it.
-/

variable {store : Store} {directory : Text} {entries : List Entry} {entry : Entry}

structure IsChild (store : Store) (directory : Text) (entry : Entry) : Prop where
  /-- The child has a name. -/
  named : entry.name ≠ []
  /-- The child is there. -/
  there : store.present (Path.under directory entry.name) = true
  /-- The child is a directory exactly if some key lies below it. -/
  inside : entry.isDirectory = true ↔ ∃ key ∈ store.keys,
    key.startsWith (store.resolve (Path.under directory entry.name) ++ ['/']) = true
  /-- The child lies one name deeper than the directory. -/
  deeper : store.place (Path.under directory entry.name) = store.place directory ++ [entry.name]

/-- The directory is no root, or it is the root with one slash and all keys go on from there by a
name. -/
def IsPlain (store : Store) (directory : Text) : Prop :=
  store.resolve directory ≠ ['/', '/'] ∧
    (store.resolve directory = ['/'] →
      ∀ key ∈ store.keys, key ≠ ['/'] ∧ key.startsWith ['/', '/'] = false)

/-! ## Plain directories -/

theorem IsPlain.names_or_root (plain : IsPlain store directory) {slashes : Nat}
    (few : slashes + 1 ≤ 2)
    (written : store.resolve directory = Path.render (slashes + 1) (store.place directory)) :
    store.place directory ≠ [] ∨ slashes = 0 ∧ store.place directory = [] ∧
      ∀ key ∈ store.keys, key ≠ ['/'] ∧ key.startsWith ['/', '/'] = false := by
  by_cases top : store.place directory = []
  · rw [top, Path.render_nil] at written
    match slashes, few with
    | 0, _ => exact Or.inr ⟨rfl, top, plain.2 written⟩
    | 1, _ => exact absurd written plain.1
  · exact Or.inl top

/-- What is read inside a plain directory is what lies below it. -/
theorem IsPlain.below_append (plain : IsPlain store directory) {slashes : Nat}
    (few : slashes + 1 ≤ 2)
    (written : store.resolve directory = Path.render (slashes + 1) (store.place directory))
    (name : Text) :
    below (store.resolve directory) ++ name =
      Path.render (slashes + 1) (store.place directory ++ [name]) := by
  have isPlace : Path.IsPlace (store.place directory) := Path.place_isPlace _
  rw [written, below_render isPlace.isStep, Path.render_concat]
  rcases plain.names_or_root few written with onward | ⟨rfl, top, _⟩
  · rw [if_neg onward, if_neg onward, List.append_assoc, List.singleton_append]
  · rw [if_pos top, if_pos top]
    rfl

theorem IsPlain.isPlace_splitOn (filed : Filed store) (plain : IsPlain store directory)
    {rest : Text} (held : below (store.resolve directory) ++ rest ∈ store.keys) :
    Path.IsPlace (rest.splitOn '/') := by
  rcases exists_resolve_eq_render filed.absolute directory with ⟨slashes, few, written, _⟩
  rcases filed.resolved _ held with ⟨path, resolved⟩
  rcases exists_resolve_eq_render filed.absolute path with ⟨also, few', written', _⟩
  have isPlace : Path.IsPlace (store.place directory) := Path.place_isPlace _
  have others : Path.IsPlace (store.place path) := Path.place_isPlace _
  have begins := written'.symm.trans resolved.symm
  rcases plain.names_or_root few written with onward | ⟨rfl, top, single⟩
  · rw [written] at begins
    rcases names_of_below isPlace.isStep onward others.isStep few few' begins with ⟨_, further⟩
    exact fun name member => others name (further ▸ List.mem_append_right _ member)
  · rcases single _ held with ⟨notRoot, notDouble⟩
    match also, few' with
    | 0, _ =>
        rcases place_of_below others begins with ends | ⟨_, tailPlace⟩
        · rw [ends, written, top] at notRoot
          exact absurd rfl notRoot
        · exact tailPlace
    | 1, _ =>
        rw [← begins] at notDouble
        cases notDouble

theorem IsPlain.isChild (filed : Filed store) (plain : IsPlain store directory)
    (listed : store.list directory = .ok entries) (member : entry ∈ entries) :
    IsChild store directory entry := by
  rcases exists_resolve_eq_render filed.absolute directory with ⟨slashes, few, written, under⟩
  have isName : Path.IsName entry.name := by
    rcases key_of_mem_list listed member with ⟨key, held, made⟩
    rcases childOf?_eq_some made with ⟨rest, rfl, named, _⟩
    rcases Text.splitOn_eq_before_cons '/' rest with ⟨more, pieces, _⟩
    refine plain.isPlace_splitOn filed held entry.name ?_
    rw [pieces, named]
    exact List.mem_cons_self
  have isPlace : Path.IsPlace (store.place directory ++ [entry.name]) := by
    intro name among
    rcases List.mem_append.mp among with earlier | last
    · exact Path.place_isPlace _ name earlier
    · exact List.mem_singleton.mp last ▸ isName
  have child := under entry.name isName
  have slash : below (store.resolve (Path.under directory entry.name)) =
      store.resolve (Path.under directory entry.name) ++ ['/'] := by
    rw [child, below_render isPlace.isStep,
      if_neg (List.concat_ne_nil entry.name (store.place directory))]
  rcases (mem_list_iff listed).mp member with ⟨_, leads, further⟩
  rw [plain.below_append few written, ← child] at leads further
  refine ⟨isName.nonempty, ?_, ?_, ?_⟩
  · rw [present, Bool.or_eq_true]
    rcases leads with held | ⟨key, held, begins⟩
    · exact Or.inl (isSome_get?_iff.mpr held)
    · exact Or.inr (isDirectory_of_below held (slash ▸ begins))
  · simpa only [Text.startsWith_iff] using further
  · rw [place, child, Path.place_render_succ isPlace]

/-! ## Other directories -/

theorem single_of_named (listed : store.list directory = .ok entries)
    (slash : below (store.resolve directory) = ['/'])
    (named : ∀ entry ∈ entries, entry.name ≠ []) :
    ∀ key ∈ store.keys, key ≠ ['/'] ∧ key.startsWith ['/', '/'] = false := by
  have unnamed : ¬ Named entries [] := by
    rintro ⟨entry, member, nameless⟩
    exact named entry member nameless
  rw [named_list_iff listed, slash] at unnamed
  intro key held
  constructor
  · intro root
    have rootHeld : ['/'] ∈ store.keys := root ▸ held
    exact unnamed ⟨List.not_mem_nil, Or.inl rootHeld⟩
  · refine Bool.eq_false_iff.mpr fun double => ?_
    exact unnamed ⟨List.not_mem_nil, Or.inr ⟨key, held, Text.startsWith_iff.mp double⟩⟩

/-- What is there below the root with two slashes is, or is part of, a key that begins with two
slashes. -/
theorem exists_double_of_present {path : Text} {names : List Text} (isPlace : Path.IsPlace names)
    (onward : names ≠ []) (written : store.resolve path = Path.render 2 names)
    (there : store.present path = true) : ∃ key ∈ store.keys, key.startsWith ['/', '/'] = true := by
  rw [present, Bool.or_eq_true, written] at there
  rcases there with held | inside
  · exact ⟨_, isSome_get?_iff.mp held, rfl⟩
  · have other : Path.render 2 names ≠ ['/'] := fun same =>
      absurd (List.cons.inj same).2 (List.cons_ne_nil _ _)
    rcases exists_below_of_isDirectory other inside with ⟨_, held, rest, rfl⟩
    refine ⟨_, held, ?_⟩
    rw [below_render isPlace.isStep, if_neg onward]
    rfl

theorem isPlain_of_isChild (filed : Filed store) (listed : store.list directory = .ok entries)
    (children : ∀ entry ∈ entries, IsChild store directory entry) : IsPlain store directory := by
  have single (slash : below (store.resolve directory) = ['/']) :=
    single_of_named listed slash fun entry member => (children entry member).named
  refine ⟨fun double => ?_, fun root => single (by rw [root]; rfl)⟩
  have slash : below (store.resolve directory) = ['/'] := by
    rw [double]
    rfl
  -- Some key lies below the root with one slash, and it is listed here by its first name.
  have there := exists_list_iff.mp ⟨entries, listed⟩
  rcases exists_below_of_isDirectory (by rw [double]; decide) there with ⟨_, held, rest, rfl⟩
  rcases named_of_below listed held with ⟨entry, member, _⟩
  have child := children entry member
  have isPlace : Path.IsPlace (store.place directory ++ [entry.name]) :=
    child.deeper ▸ Path.place_isPlace _
  have isName := isPlace entry.name (List.mem_append_right _ List.mem_cons_self)
  rcases exists_resolve_eq_render filed.absolute directory with ⟨slashes, few, written, under⟩
  have counted : Path.rootSlashes (store.resolve directory) = slashes + 1 := by
    rw [written]
    exact Path.rootSlashes_render few (Path.place_isPlace _).isStep
  have two : slashes = 1 := by
    rw [double] at counted
    exact (Nat.succ.inj counted).symm
  have resolved := under entry.name isName
  rw [two] at resolved
  rcases exists_double_of_present isPlace (List.concat_ne_nil entry.name (store.place directory))
    resolved child.there with ⟨key, among, begins⟩
  rw [(single slash key among).2] at begins
  cases begins

/-- A walk from the root does not end where a key begins with two slashes: the root is listed as a
directory in itself. -/
theorem walkWithin_endless (filed : Filed store) (listed : store.list directory = .ok entries)
    (slash : below (store.resolve directory) = ['/']) {key : Text} (held : key ∈ store.keys)
    (double : key.startsWith ['/', '/'] = true) (levels : Nat) (found : List Text) :
    Files.walkWithin store levels directory ≠ .ok found := by
  intro walked
  have onward : below (store.resolve directory) ++ [] ++ ['/'] <+: key := by
    rw [slash]
    exact Text.startsWith_iff.mp double
  have member : (⟨[], true⟩ : Entry) ∈ entries :=
    (mem_list_iff listed).mpr ⟨List.not_mem_nil, Or.inr ⟨key, held, onward⟩,
      fun _ => ⟨key, held, onward⟩, fun _ => rfl⟩
  have normal : ∀ key ∈ store.keys, ∃ path, key = Path.normalize path := by
    intro key held
    rcases filed.resolved key held with ⟨path, resolved⟩
    exact ⟨_, resolved⟩
  exact (spread_of_normal normal).not_isIdle walked listed member rfl (Or.inl rfl)

/-- Whatever has been written to a store, a directory is listed in the order of names, and no name
holds a slash.  All entries stand for children exactly if the directory is neither the root with two
slashes nor the root with one beside keys that are the root or begin with two slashes; and from
either root no walk comes to an end where a key begins with two slashes. -/
theorem list_children {cwd : Text} (absolute : Path.isAbsolute cwd = true)
    (files : List (Text × Text)) (denied : List Text) (writes : List (Text × Text))
    {directory : Text} {entries : List Entry}
    (listed : ((ofFiles cwd files denied).writeAll writes).list directory = .ok entries) :
    let store := (ofFiles cwd files denied).writeAll writes
    (entries.Pairwise fun first second => first.name < second.name) ∧
      (∀ entry ∈ entries, '/' ∉ entry.name) ∧
      ((∀ entry ∈ entries, IsChild store directory entry) ↔
        store.resolve directory ≠ ['/', '/'] ∧
          (store.resolve directory = ['/'] →
            ∀ key ∈ store.keys, key ≠ ['/'] ∧ key.startsWith ['/', '/'] = false)) ∧
      (store.resolve directory = ['/'] ∨ store.resolve directory = ['/', '/'] →
        (∃ key ∈ store.keys, key.startsWith ['/', '/'] = true) →
        ∀ levels found, Files.walkWithin store levels directory ≠ .ok found) := by
  intro store
  have filed : Filed store := (filed_ofFiles absolute files denied).writeAll writes
  refine ⟨Ordered.of_list listed, fun entry member => ((mem_list_iff listed).mp member).1,
    ⟨isPlain_of_isChild filed listed, fun plain entry member => ?_⟩, ?_⟩
  · exact IsPlain.isChild filed plain listed member
  · rintro root ⟨key, held, double⟩
    have slash : below (store.resolve directory) = ['/'] := by
      rcases root with one | two
      · rw [one]
        rfl
      · rw [two]
        rfl
    exact walkWithin_endless filed listed slash held double

/-- A file whose path begins with two slashes, seen from the root. -/
theorem list_children_nameless :
    let store := (ofFiles "/" [("//x/a.md", [])] []).writeAll [("/b.md", [])]
    let entries : List Entry := [⟨[], true⟩, ⟨"b.md", false⟩]
    Path.isAbsolute "/" = true ∧ store.list "/" = .ok entries ∧
      (¬ ∀ entry ∈ entries, IsChild store "/" entry) ∧
      ∀ levels found, Files.walkWithin store levels "/" ≠ .ok found := by
  intro store entries
  have absolute : Path.isAbsolute "/" = true := by decide
  have listed : store.list "/" = .ok entries := by decide +kernel
  have held : ("//x/a.md" : Text) ∈ store.keys := by decide +kernel
  have root : store.resolve "/" = ['/'] := by decide +kernel
  rcases list_children absolute _ _ _ listed with ⟨_, _, children_iff, endless⟩
  refine ⟨absolute, listed, fun children => ?_, endless (Or.inl root) ⟨_, held, by decide⟩⟩
  have single := ((children_iff.mp children).2 root _ held).2
  cases single

end Store
end Crosslink

import Crosslink.Proofs.Files.Store
import Crosslink.Proofs.Link.Target
import Crosslink.Proofs.Path.Parent

namespace Crosslink
namespace Target

/-!
Where the root is found.  The search for a root marker goes up from a directory until it has been
in so many directories, or until there is nothing above that is not the directory itself.  It ends
with the first directory in which a marker is there, and where it ends with none, links are read
in the directory of their file.
-/

/-! ## The directories on the way up -/

variable {start directory : Text} {limit steps : Nat}

theorem getElem?_upward_eq_some_iff :
    (upward limit start)[steps]? = some directory ↔
      steps ≤ limit ∧ Path.Rises start steps ∧ directory = Path.parent^[steps] start := by
  have nowhere (start : Text) : Path.Rises start 0 := fun _ none => absurd none (Nat.not_lt_zero _)
  induction limit generalizing start steps with
  | zero =>
      cases steps with
      | zero => simp [upward, nowhere, eq_comm]
      | succ steps => simp [upward]
  | succ limit inductionHypothesis =>
      rw [upward]
      cases steps with
      | zero => split <;> simp [nowhere, eq_comm]
      | succ steps =>
          rw [Path.rises_succ_iff, Nat.succ_le_succ_iff, Function.iterate_succ_apply]
          split
          · next top =>
              rw [Bool.or_eq_true, List.isEmpty_iff, decide_eq_true_iff] at top
              constructor
              · intro impossible
                cases impossible
              · rintro ⟨_, ⟨⟨somewhere, fresh⟩, _⟩, _⟩
                rcases top with empty | same
                · exact absurd empty somewhere
                · exact absurd same fresh
          · next onward =>
              rw [Bool.or_eq_true, List.isEmpty_iff, decide_eq_true_iff, not_or] at onward
              rw [List.getElem?_cons_succ, and_iff_right onward]
              exact inductionHypothesis

/-- The directories that are searched are those to which steps lead up. -/
theorem getElem?_ancestors_eq_some_iff (named : start ≠ []) :
    (ancestors start)[steps]? = some directory ↔
      Path.Climbs start steps ∧ directory = Path.parent^[steps] start := by
  rw [ancestors, getElem?_upward_eq_some_iff, Path.climbs_iff_rises named]
  exact and_iff_right_of_imp fun led => led.1.le_length

/-! ## The search -/

def Marked (store : Store) (directory : Text) : Prop :=
  ∃ marker ∈ ([".git", "pyproject.toml", "package.json", ".mdlinks"] : List Text),
    store.present (Path.under directory marker) = true

instance (store : Store) (directory : Text) : Decidable (Marked store directory) :=
  inferInstanceAs (Decidable (∃ marker ∈ _, _))

/-- The first of so many directories, going up from a start, in which a root marker is there. -/
structure NearestMarked (store : Store) (start : Text) (depth : Int) (steps : Nat) : Prop where
  /-- The directory is among the first so many. -/
  within : (steps : Int) < depth
  /-- Steps lead up to the directory. -/
  climbs : Path.Climbs start steps
  marked : Marked store (Path.parent^[steps] start)
  /-- No marker is there in a directory below. -/
  least : ∀ fewer < steps, ¬ Marked store (Path.parent^[fewer] start)

theorem isMarked_eq_ok (store : Store) (directory : Text) :
    isMarked (Files.present store) directory = .ok (decide (Marked store directory)) := by
  have asked : isMarked (Files.present store) directory =
      .ok (rootMarkers.any fun marker => store.present (Path.under directory marker)) :=
    List.anyM_pure (m := Except Failure)
  rw [asked]
  refine congrArg Except.ok (Bool.eq_iff_iff.mpr ?_)
  rw [List.any_eq_true, decide_eq_true_iff]
  exact Iff.rfl

theorem detectRoot_eq_ok (store : Store) (start : Text) (depth : Int) :
    detectRoot (Files.present store) start depth =
      .ok (((ancestors start).take depth.toNat).find? fun directory =>
        decide (Marked store directory)) := by
  rw [detectRoot, funext (isMarked_eq_ok store)]
  exact List.findM?_pure (m := Except Failure) _ _

variable {store : Store} {depth : Int}

/-- Among the directories that are searched those come first to which fewer steps lead. -/
theorem getElem?_take_ancestors (named : start ≠ []) :
    ((ancestors start).take depth.toNat)[steps]? = some directory ↔
      (steps : Int) < depth ∧ Path.Climbs start steps ∧ directory = Path.parent^[steps] start := by
  rw [List.getElem?_take, ← getElem?_ancestors_eq_some_iff named, ← Int.lt_toNat]
  split
  · next within => rw [and_iff_right within]
  · next beyond => exact iff_of_false nofun fun found => beyond found.1

theorem detectRoot_eq_some_iff (named : start ≠ []) {root : Text} :
    detectRoot (Files.present store) start depth = .ok (some root) ↔
      ∃ steps, NearestMarked store start depth steps ∧ root = Path.parent^[steps] start := by
  rw [detectRoot_eq_ok, Except.ok.injEq, List.find?_eq_some_iff_getElem]
  constructor
  · rintro ⟨marked, steps, inside, here, least⟩
    rcases (getElem?_take_ancestors named).mp (List.getElem?_eq_some_iff.mpr ⟨inside, here⟩) with
      ⟨within, climbs, same⟩
    refine ⟨steps, ⟨within, climbs, same ▸ of_decide_eq_true marked, fun fewer before => ?_⟩, same⟩
    have earlier : ((ancestors start).take depth.toNat)[fewer]? =
        some (Path.parent^[fewer] start) :=
      (getElem?_take_ancestors named).mpr ⟨by omega, climbs.mono (Nat.le_of_lt before), rfl⟩
    rcases List.getElem?_eq_some_iff.mp earlier with ⟨_, there⟩
    simpa [there] using least fewer before
  · rintro ⟨steps, nearest, same⟩
    have found := (getElem?_take_ancestors named).mpr ⟨nearest.within, nearest.climbs, same⟩
    rcases List.getElem?_eq_some_iff.mp found with ⟨inside, here⟩
    refine ⟨decide_eq_true (same ▸ nearest.marked), steps, inside, here, fun fewer before => ?_⟩
    have there := (getElem?_take_ancestors named).mp
      (List.getElem?_eq_getElem (Nat.lt_trans before inside))
    simpa [there.2.2] using nearest.least fewer before

/-- No root is found if no directory that is searched is marked. -/
theorem detectRoot_eq_none_iff (named : start ≠ []) :
    detectRoot (Files.present store) start depth = .ok none ↔
      ∀ steps : Nat, (steps : Int) < depth → Path.Climbs start steps →
        ¬ Marked store (Path.parent^[steps] start) := by
  rw [detectRoot_eq_ok, Except.ok.injEq, List.find?_eq_none]
  constructor
  · intro none steps within climbs marked
    have found := (getElem?_take_ancestors named).mpr ⟨within, climbs, rfl⟩
    exact none _ (List.mem_of_getElem? found) (decide_eq_true marked)
  · intro none directory member marked
    rcases List.mem_iff_getElem?.mp member with ⟨steps, found⟩
    rcases (getElem?_take_ancestors named).mp found with ⟨within, climbs, same⟩
    exact none steps within climbs (same ▸ of_decide_eq_true marked)

/-! ## The root of a file -/

theorem hostDir_ne_nil (file : Text) : Path.hostDir file ≠ [] := by
  unfold Path.hostDir
  dsimp only
  split
  · exact List.cons_ne_nil _ _
  · next somewhere => exact fun empty => somewhere (List.isEmpty_iff.mpr empty)

/-- Where no root is given, the one that is found above the file is taken, or else the directory
of the file. -/
theorem rootFor_of_not_given {given? : Option Text} (open? : given? = none ∨ given? = some [])
    (store : Store) (file : Text) {found : Option Text}
    (searched : detectRoot (Files.present store) (Path.hostDir file) searchDepth = .ok found) :
    rootFor (Files.present store) given? file = .ok (found.getD (Path.hostDir file)) := by
  have asNone : rootFor (Files.present store) given? file =
      rootFor (Files.present store) none file := by
    rcases open? with rfl | rfl <;> rfl
  rw [asNone]
  unfold rootFor
  dsimp only
  rw [searched]
  cases found with
  | none => rfl
  | some root =>
      rcases (detectRoot_eq_some_iff (hostDir_ne_nil file)).mp searched with ⟨steps, nearest, same⟩
      have somewhere : root ≠ [] := same ▸ (nearest.climbs steps (Nat.le_refl _)).1
      cases root with
      | nil => exact absurd rfl somewhere
      | cons c rest => rfl

/-- The search for a root ends with the first marked directory among the first so many going up
from its start, and with none exactly if none of them is marked.  A link whose root is not given
leads to where its path, made with the root that is found above its file within ten directories, or
else with the directory of the file, is resolved. -/
theorem detectRoot_nearest (store : Store) (named : start ≠ []) (depth : Int) {href : Text}
    (written : href ≠ []) (cwd : Text) (folders : List Text) (file : Text) :
    (∀ root, detectRoot (Files.present store) start depth = .ok (some root) ↔
        ∃ steps, NearestMarked store start depth steps ∧ root = Path.parent^[steps] start) ∧
      (detectRoot (Files.present store) start depth = .ok none ↔
        ∀ steps : Nat, (steps : Int) < depth → Path.Climbs start steps →
          ¬ Marked store (Path.parent^[steps] start)) ∧
      ∃ found target,
        detectRoot (Files.present store) (Path.hostDir file) 10 = .ok found ∧
        path? cwd folders (found.getD (Path.hostDir file)) file href = .ok target ∧
        locate store cwd folders none file href = .ok (store.resolve target) ∧
        locate store cwd folders (some []) file href = .ok (store.resolve target) := by
  refine ⟨fun root => detectRoot_eq_some_iff named, detectRoot_eq_none_iff named, ?_⟩
  obtain ⟨found, searched⟩ : ∃ found,
      detectRoot (Files.present store) (Path.hostDir file) 10 = .ok found :=
    ⟨_, detectRoot_eq_ok store (Path.hostDir file) 10⟩
  let root := found.getD (Path.hostDir file)
  have led : path? cwd folders root file href = .ok (path cwd folders root file href) :=
    if_neg fun empty => written (List.isEmpty_iff.mp empty)
  have located {given? : Option Text} (open? : given? = none ∨ given? = some []) :
      locate store cwd folders given? file href =
        .ok (store.resolve (path cwd folders root file href)) := by
    rw [locate, rootFor_of_not_given open? store file searched]
    change (path? cwd folders root file href >>= fun found => _) = _
    rw [led]
    rfl
  exact ⟨found, _, searched, led, located (Or.inl rfl), located (Or.inr rfl)⟩

/-- A root two steps up, whose marker is a directory, and a link that is read in it. -/
theorem detectRoot_nearest_two_up :
    let store := Store.ofFiles "/" [("/w/.git/HEAD", []), ("/w/docs/a/b.md", [])] []
    (("/w/docs/a" : Text) ≠ [] ∧ ("guide/c.md" : Text) ≠ []) ∧
      detectRoot (Files.present store) "/w/docs/a" 3 = .ok (some "/w") ∧
      detectRoot (Files.present store) "/w/docs/a" 2 = .ok none ∧
      locate store "/" ["guide"] none "/w/docs/a/b.md" "guide/c.md" = .ok "/w/guide/c.md" := by
  intro store
  have named : ("/w/docs/a" : Text) ≠ [] := by decide
  have written : ("guide/c.md" : Text) ≠ [] := by decide
  have searches (depth : Int) :=
    detectRoot_nearest store named depth written "/" ["guide"] "/w/docs/a/b.md"
  have nearest : NearestMarked store "/w/docs/a" 3 2 :=
    ⟨by decide, by decide +kernel, by decide +kernel, by decide +kernel⟩
  refine ⟨⟨named, written⟩, ((searches 3).1 _).mpr ⟨2, nearest, by decide +kernel⟩,
    (searches 2).2.1.mpr fun steps within _ => nearest.least steps (by omega), ?_⟩
  rcases (searches 10).2.2 with ⟨found, target, searched, led, located, _⟩
  have root : detectRoot (Files.present store) (Path.hostDir "/w/docs/a/b.md") 10 =
      .ok (some "/w") := by decide +kernel
  cases root.symm.trans searched
  have leads : path? "/" ["guide"] "/w" "/w/docs/a/b.md" "guide/c.md" =
      .ok "/w/guide/c.md" := by decide +kernel
  cases leads.symm.trans led
  exact located.trans (by decide +kernel)

end Target
end Crosslink

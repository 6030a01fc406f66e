import Crosslink.Proofs.Files.Store
import Crosslink.Proofs.Link.Variant
import Mathlib.Data.Nat.Find

namespace Crosslink
namespace Variant

/-!
Which variant is found.  Variants are told apart by the number of leading segments that they leave
out, not by their spelling, since two of them can be spelled alike.  The search goes by that number
and stops at the least one that leads to something; files that are added can only bring it to a stop
earlier.
-/

section

variable (present : Text → Bool) (cwd : Text) (rules : Rules) (file href : Text)

/-- The variant without so many leading segments leads to something. -/
def Reaches (count : Nat) : Prop :=
  ∃ target, Target.path? cwd rules.folders rules.root file (dropping (href.splitOn '/') count) =
    .ok target ∧ present target = true

/-- The variant without so many leading segments changes the link least of those that lead to
something. -/
structure Nearest (count : Nat) : Prop where
  /-- The link begins by climbing. -/
  climbs : href.startsWith ['.', '.', '/'] = true
  /-- No more segments are left out than there are steps up. -/
  counted : count ≤ (href.splitOn '/').count Path.up
  reaches : Reaches present cwd rules file href count
  /-- Without fewer segments the link leads to nothing. -/
  least : ∀ less < count, ¬ Reaches present cwd rules file href less

end

variable {present : Text → Bool} {cwd file href candidate : Text} {rules : Rules}

theorem dropping_ne_nil (segments : List Text) (count : Nat) : dropping segments count ≠ [] := by
  intro empty
  have begins : (dropping segments count).startsWith ['.'] = true := startsWith_dotted _
  rw [empty] at begins
  cases begins

theorem reaches_iff {count : Nat} :
    Reaches present cwd rules file href count ↔
      present (Target.path cwd rules.folders rules.root file
        (dropping (href.splitOn '/') count)) = true := by
  have written : Target.path? cwd rules.folders rules.root file
      (dropping (href.splitOn '/') count) =
        .ok (Target.path cwd rules.folders rules.root file (dropping (href.splitOn '/') count)) :=
    if_neg fun empty => dropping_ne_nil _ _ (List.isEmpty_iff.mp empty)
  constructor
  · rintro ⟨target, led, there⟩
    cases written.symm.trans led
    exact there
  · exact fun there => ⟨_, written, there⟩

instance (count : Nat) : Decidable (Reaches present cwd rules file href count) :=
  decidable_of_iff _ reaches_iff.symm

/-- The search for a link that begins by climbing goes through the numbers of segments. -/
theorem find?_of_climbs (climbs : href.startsWith ['.', '.', '/'] = true) :
    find? (fun place => .ok (present place)) cwd rules file href =
      .ok (((List.range ((href.splitOn '/').count Path.up + 1)).find? fun count =>
        decide (Reaches present cwd rules file href count)).map (dropping (href.splitOn '/'))) := by
  rw [find?_eq_ok, candidates, if_pos climbs, List.find?_map]
  refine congrArg (fun found => Except.ok (Option.map _ found)) ?_
  refine congrArg (fun passes => List.find? passes _) (funext fun count => ?_)
  rw [Function.comp, Bool.eq_iff_iff, decide_eq_true_iff]
  exact reaches_iff.symm

theorem find?_of_not_climbs (level : href.startsWith ['.', '.', '/'] = false) :
    find? (fun place => .ok (present place)) cwd rules file href = .ok none := by
  rw [find?_eq_ok, candidates, level]
  rfl

/-- The variant that is found is the nearest one. -/
theorem find?_eq_some_iff :
    find? (fun place => .ok (present place)) cwd rules file href = .ok (some candidate) ↔
      ∃ count, Nearest present cwd rules file href count ∧
        candidate = dropping (href.splitOn '/') count := by
  cases climbs : href.startsWith ['.', '.', '/'] with
  | false =>
      rw [find?_of_not_climbs climbs]
      constructor
      · intro impossible
        cases impossible
      · rintro ⟨_, nearest, _⟩
        cases climbs.symm.trans nearest.climbs
  | true =>
      rw [find?_of_climbs climbs, Except.ok.injEq, Option.map_eq_some_iff]
      refine exists_congr fun count => and_congr ?_ eq_comm
      rw [List.find?_range_eq_some, List.mem_range, Nat.lt_succ_iff, decide_eq_true_iff]
      constructor
      · rintro ⟨reaches, counted, least⟩
        refine ⟨climbs, counted, reaches, fun less earlier => ?_⟩
        simpa using least less earlier
      · rintro ⟨_, counted, reaches, least⟩
        refine ⟨reaches, counted, fun less earlier => ?_⟩
        simpa using least less earlier

/-- Nothing is found for a link that does not begin by climbing, and for one whose variants all lead
to nothing. -/
theorem find?_eq_none_iff :
    find? (fun place => .ok (present place)) cwd rules file href = .ok none ↔
      href.startsWith ['.', '.', '/'] = false ∨
        ∀ count ≤ (href.splitOn '/').count Path.up,
          ¬ Reaches present cwd rules file href count := by
  cases climbs : href.startsWith ['.', '.', '/'] with
  | false => exact ⟨fun _ => Or.inl rfl, fun _ => find?_of_not_climbs climbs⟩
  | true =>
      rw [find?_of_climbs climbs, Except.ok.injEq, Option.map_eq_none_iff, List.find?_eq_none]
      constructor
      · intro none
        refine Or.inr fun count counted reaches => ?_
        exact none count (List.mem_range.mpr (Nat.lt_succ_of_le counted)) (decide_eq_true reaches)
      · rintro (level | none) count member reaches
        · cases level
        · exact none count (Nat.le_of_lt_succ (List.mem_range.mp member))
            (of_decide_eq_true reaches)

theorem Nearest.mono {more : Text → Bool} (grown : ∀ place, present place = true → more place = true)
    {count : Nat} (nearest : Nearest present cwd rules file href count) :
    ∃ less ≤ count, Nearest more cwd rules file href less := by
  have still : ∃ less, Reaches more cwd rules file href less := by
    rcases nearest.reaches with ⟨target, led, there⟩
    exact ⟨count, target, led, grown target there⟩
  have least : Nat.find still ≤ count := by
    rcases nearest.reaches with ⟨target, led, there⟩
    exact Nat.find_min' still ⟨target, led, grown target there⟩
  exact ⟨Nat.find still, least, nearest.climbs, least.trans nearest.counted, Nat.find_spec still,
    fun _ earlier => Nat.find_min still earlier⟩

/-- In a store the search ends with no variant exactly if the link does not begin by climbing or
none of its variants leads to something, and else with the nearest one.  In a store with more files
a variant is found too, and it leaves out no more segments. -/
theorem find?_nearest (store : Store) (cwd : Text) (rules : Rules) (file href : Text) :
    (find? (Files.present store) cwd rules file href = .ok none ↔
        href.startsWith ['.', '.', '/'] = false ∨
          ∀ count ≤ (href.splitOn '/').count Path.up,
            ¬ Reaches store.present cwd rules file href count) ∧
      (∀ candidate, find? (Files.present store) cwd rules file href = .ok (some candidate) ↔
        ∃ count, Nearest store.present cwd rules file href count ∧
          candidate = dropping (href.splitOn '/') count) ∧
      ∀ larger, store.Within larger → ∀ count, Nearest store.present cwd rules file href count →
        ∃ less ≤ count, Nearest larger.present cwd rules file href less ∧
          find? (Files.present larger) cwd rules file href =
            .ok (some (dropping (href.splitOn '/') less)) := by
  refine ⟨find?_eq_none_iff, fun candidate => find?_eq_some_iff, ?_⟩
  intro larger within count nearest
  rcases nearest.mono (fun _ there => within.present there) with ⟨less, fewer, again⟩
  exact ⟨less, fewer, again, find?_eq_some_iff.mpr ⟨less, again, rfl⟩⟩

/-- A link whose variant without both steps up is found, and a file that brings the one without the
first step up in front of it. -/
theorem find?_nearest_added :
    let store := Store.ofFiles "/" [("/w/docs/a/c.md", [])] []
    let larger := store.put "/w/docs/c.md" []
    let rules : Rules := { folders := ["docs"], root := "/w", exclusions := [] }
    let found (store : Store) :=
      find? (Files.present store) "/" rules "/w/docs/a/b.md" "../../c.md"
    (store.Within larger ∧ Nearest store.present "/" rules "/w/docs/a/b.md" "../../c.md" 2) ∧
      (∃ less ≤ 2, Nearest larger.present "/" rules "/w/docs/a/b.md" "../../c.md" less ∧
        found larger = .ok (some (dropping (Text.splitOn '/' "../../c.md") less))) ∧
      found store = .ok (some "./c.md") ∧ found larger = .ok (some "../c.md") := by
  intro store larger rules found
  have within : store.Within larger := Store.within_put store _ _
  have nearest : Nearest store.present "/" rules "/w/docs/a/b.md" "../../c.md" 2 :=
    ⟨by decide, by decide, by decide +kernel, by decide +kernel⟩
  exact ⟨⟨within, nearest⟩,
    (find?_nearest store "/" rules "/w/docs/a/b.md" "../../c.md").2.2 larger within 2 nearest,
    by decide +kernel, by decide +kernel⟩

end Variant
end Crosslink

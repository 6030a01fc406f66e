import Crosslink.Markup.Source

namespace Crosslink
namespace Markup
namespace Source

/-!
Scans of a text by position.  A scan does not go back, and a scan back does not go forward.
-/

variable {source : Source} {test : Char → Bool}

/-- What stands between two positions, as a stretch of the list of characters. -/
theorem between_eq (source : Source) (start stop : Nat) :
    source.between start stop = (source.toList.take stop).drop start := by
  rw [between, Array.toList_extract, List.extract_eq_take_drop, List.drop_take]

theorem has_iff {position : Nat} {c : Char} :
    source.has position c = true ↔ source[position]? = some c := by
  rw [has, beq_iff_eq]

theorem le_passUpTo (most position : Nat) : position ≤ source.passUpTo test most position := by
  induction most generalizing position with
  | zero => exact Nat.le_refl position
  | succ most inductionHypothesis =>
      rw [passUpTo]
      split
      · split
        · exact Nat.le_trans (Nat.le_succ position) (inductionHypothesis (position + 1))
        · exact Nat.le_refl position
      · exact Nat.le_refl position

/-- A scan does not go back. -/
theorem le_pass (stop position : Nat) : position ≤ source.pass test stop position :=
  le_passUpTo _ _

theorem passUpTo_eq_of {most position found : Nat} (ahead : position ≤ found)
    (within : found ≤ position + most)
    (passed : ∀ place, position ≤ place → place < found →
      ∃ c, source[place]? = some c ∧ test c = true)
    (stops : found < position + most → ∀ c, source[found]? = some c → test c = false) :
    source.passUpTo test most position = found := by
  induction most generalizing position with
  | zero => exact Nat.le_antisymm ahead within
  | succ most inductionHypothesis =>
      rw [passUpTo]
      rcases Nat.eq_or_lt_of_le ahead with same | before
      · subst same
        cases held : source[position]? with
        | none => rfl
        | some c =>
            dsimp only
            rw [stops (by omega) c held]
            exact if_neg Bool.false_ne_true
      · rcases passed position (Nat.le_refl position) before with ⟨c, held, passes⟩
        rw [held]
        dsimp only
        rw [if_pos passes]
        exact inductionHypothesis before (by omega)
          (fun place later => passed place (by omega)) fun short => stops (by omega)

/-- A scan comes to the first position, up to a last one, that does not pass. -/
theorem pass_eq_of {stop position found : Nat} (ahead : position ≤ found)
    (within : found ≤ max position stop)
    (passed : ∀ place, position ≤ place → place < found →
      ∃ c, source[place]? = some c ∧ test c = true)
    (stops : found < stop → ∀ c, source[found]? = some c → test c = false) :
    source.pass test stop position = found :=
  passUpTo_eq_of ahead (by omega) passed fun short => stops (by omega)

theorem passUpTo_spec (most position : Nat) :
    source.passUpTo test most position ≤ position + most ∧
      (∀ place, position ≤ place → place < source.passUpTo test most position →
        ∃ c, source[place]? = some c ∧ test c = true) ∧
      (source.passUpTo test most position < position + most →
        ∀ c, source[source.passUpTo test most position]? = some c → test c = false) := by
  induction most generalizing position with
  | zero =>
      refine ⟨Nat.le_refl position, fun place ahead before => ?_, fun short => ?_⟩
      · exact absurd before (Nat.not_lt.mpr ahead)
      · exact absurd short (Nat.lt_irrefl position)
  | succ most inductionHypothesis =>
      rw [passUpTo]
      split
      · next c held =>
          split
          · next passes =>
              rcases inductionHypothesis (position + 1) with ⟨within, passed, stops⟩
              refine ⟨by omega, fun place ahead before => ?_, fun short => stops (by omega)⟩
              rcases Nat.eq_or_lt_of_le ahead with same | later
              · exact ⟨c, same ▸ held, passes⟩
              · exact passed place later before
          · next fails =>
              refine ⟨by omega, fun place ahead before => by omega, fun _ other stands => ?_⟩
              cases held.symm.trans stands
              exact Bool.eq_false_iff.mpr fails
      · next held =>
          exact ⟨by omega, fun place ahead before => by omega,
            fun _ other stands => nomatch held.symm.trans stands⟩

theorem pass_le (stop position : Nat) : source.pass test stop position ≤ max position stop := by
  have within : source.passUpTo test (stop - position) position ≤ position + (stop - position) :=
    (passUpTo_spec (stop - position) position).1
  rw [pass]
  omega

/-- What a scan passes satisfies its test. -/
theorem test_of_lt_pass {stop position place : Nat} (ahead : position ≤ place)
    (before : place < source.pass test stop position) :
    ∃ c, source[place]? = some c ∧ test c = true :=
  (passUpTo_spec (stop - position) position).2.1 place ahead before

/-- What stops a scan fails its test. -/
theorem test_pass_eq_false {stop position : Nat} {c : Char}
    (short : source.pass test stop position < stop)
    (held : source[source.pass test stop position]? = some c) : test c = false := by
  have ahead : position ≤ source.pass test stop position := le_pass stop position
  exact (passUpTo_spec (stop - position) position).2.2 (by rw [← pass]; omega) c held

/-- A scan comes at least as far as all characters satisfy its test. -/
theorem le_pass_of {stop position middle : Nat} (within : middle ≤ stop)
    (passed : ∀ place, position ≤ place → place < middle →
      ∃ c, source[place]? = some c ∧ test c = true) :
    middle ≤ source.pass test stop position := by
  refine Nat.le_of_not_lt fun short => ?_
  rcases passed _ (le_pass stop position) short with ⟨c, held, passes⟩
  cases passes.symm.trans (test_pass_eq_false (Nat.lt_of_lt_of_le short within) held)

/-- A scan that has come to a position goes on from there. -/
theorem pass_eq_pass {stop position middle : Nat} (ahead : position ≤ middle)
    (passed : middle ≤ source.pass test stop position) :
    source.pass test stop middle = source.pass test stop position := by
  have bounded : source.pass test stop position ≤ max position stop := pass_le stop position
  exact pass_eq_of passed (by omega) (fun place later before => test_of_lt_pass (by omega) before)
    fun short c held => test_pass_eq_false short held

/-- A scan does not run over a position whose character fails its test. -/
theorem pass_eq_pass_of_le {stop position last : Nat} (ahead : position ≤ stop) (within : stop ≤ last)
    (stops : ∀ c, source[stop]? = some c → test c = false) :
    source.pass test stop position = source.pass test last position := by
  have bounded : source.pass test stop position ≤ max position stop := pass_le stop position
  refine (pass_eq_of (le_pass stop position) (by omega)
    (fun place later before => test_of_lt_pass later before) fun _ c held => ?_).symm
  rcases Nat.lt_or_ge (source.pass test stop position) stop with short | reached
  · exact test_pass_eq_false short held
  · have same : source.pass test stop position = stop := by omega
    exact stops c (same ▸ held)

theorem passBackUpTo_le (most position : Nat) :
    source.passBackUpTo test most position ≤ position := by
  induction most generalizing position with
  | zero => exact Nat.le_refl position
  | succ most inductionHypothesis =>
      rw [passBackUpTo]
      split
      · split
        · exact Nat.le_trans (inductionHypothesis _) (Nat.sub_le position 1)
        · exact Nat.le_refl position
      · exact Nat.le_refl position

/-- A scan back does not go forward. -/
theorem passBack_le (floor position : Nat) : source.passBack test floor position ≤ position :=
  passBackUpTo_le _ _

theorem passBackUpTo_eq_of {most position found : Nat} (within : found ≤ position)
    (reach : position ≤ found + most)
    (passed : ∀ place, found ≤ place → place < position →
      ∃ c, source[place]? = some c ∧ test c = true)
    (stops : position < found + most → ∀ c, source[found - 1]? = some c → test c = false) :
    source.passBackUpTo test most position = found := by
  induction most generalizing position with
  | zero => exact Nat.le_antisymm reach within
  | succ most inductionHypothesis =>
      rw [passBackUpTo]
      rcases Nat.eq_or_lt_of_le within with same | before
      · subst same
        cases held : source[found - 1]? with
        | none => rfl
        | some c =>
            dsimp only
            rw [stops (by omega) c held]
            exact if_neg Bool.false_ne_true
      · rcases passed (position - 1) (by omega) (by omega) with ⟨c, held, passes⟩
        rw [held]
        dsimp only
        rw [if_pos passes]
        exact inductionHypothesis (by omega) (by omega)
          (fun place ahead short => passed place ahead (by omega)) fun short => stops (by omega)

/-- A scan back comes to the last position, down to a first one, that no character stands in front
of that passes. -/
theorem passBack_eq_of {floor position found : Nat} (reach : floor ≤ found)
    (within : found ≤ position)
    (passed : ∀ place, found ≤ place → place < position →
      ∃ c, source[place]? = some c ∧ test c = true)
    (stops : floor < found → ∀ c, source[found - 1]? = some c → test c = false) :
    source.passBack test floor position = found :=
  passBackUpTo_eq_of within (by omega) passed fun short => stops (by omega)

theorem passBackUpTo_spec (most position : Nat) :
    position ≤ source.passBackUpTo test most position + most ∧
      (∀ place, source.passBackUpTo test most position ≤ place → place < position →
        ∃ c, source[place]? = some c ∧ test c = true) ∧
      (position < source.passBackUpTo test most position + most →
        0 < source.passBackUpTo test most position →
        ∀ c, source[source.passBackUpTo test most position - 1]? = some c → test c = false) := by
  induction most generalizing position with
  | zero =>
      refine ⟨Nat.le_refl position, fun place ahead before => ?_, fun short => ?_⟩
      · exact absurd before (Nat.not_lt.mpr ahead)
      · exact absurd short (Nat.lt_irrefl position)
  | succ most inductionHypothesis =>
      rw [passBackUpTo]
      split
      · next c held =>
          split
          · next passes =>
              rcases inductionHypothesis (position - 1) with ⟨reach, passed, stops⟩
              have within : source.passBackUpTo test most (position - 1) ≤ position - 1 :=
                passBackUpTo_le most (position - 1)
              refine ⟨by omega, fun place ahead before => ?_,
                fun short positive => stops (by omega) positive⟩
              rcases Nat.lt_or_ge place (position - 1) with earlier | last
              · exact passed place ahead earlier
              · exact ⟨c, (by omega : place = position - 1) ▸ held, passes⟩
          · next fails =>
              refine ⟨by omega, fun place ahead before => by omega, fun _ _ other stands => ?_⟩
              cases held.symm.trans stands
              exact Bool.eq_false_iff.mpr fails
      · next held =>
          exact ⟨by omega, fun place ahead before => by omega,
            fun _ _ other stands => nomatch held.symm.trans stands⟩

theorem le_passBack {floor position : Nat} (ordered : floor ≤ position) :
    floor ≤ source.passBack test floor position := by
  have reach : position ≤ source.passBackUpTo test (position - floor) position + (position - floor) :=
    (passBackUpTo_spec (position - floor) position).1
  rw [passBack]
  omega

theorem test_of_passBack_le {floor position place : Nat}
    (ahead : source.passBack test floor position ≤ place) (before : place < position) :
    ∃ c, source[place]? = some c ∧ test c = true :=
  (passBackUpTo_spec (position - floor) position).2.1 place ahead before

theorem test_passBack_eq_false {floor position : Nat} {c : Char}
    (short : floor < source.passBack test floor position)
    (held : source[source.passBack test floor position - 1]? = some c) : test c = false :=
  (passBackUpTo_spec (position - floor) position).2.2 (by rw [← passBack]; omega)
    (by rw [← passBack]; omega) c held

theorem le_of_find? {c : Char} {position found : Nat} (first : source.find? c position = some found) :
    position ≤ found := by
  rw [find?] at first
  split at first
  · cases first
    exact le_pass _ _
  · cases first

end Source
end Markup
end Crosslink

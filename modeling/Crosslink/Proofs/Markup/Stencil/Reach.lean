import Crosslink.Proofs.Markup.Stencil.Construct

namespace Crosslink
namespace Markup

/-!
What is remembered while a filled text is passed over.  The scanner of the outline comes to the
parenthesis in front of a slot and from there, in one step, behind the plain text that the slot is
part of.  In the filled text it may take more steps, because a word may hold characters that end a
run of plain text.  These steps depend on the word alone, so whoever comes to the parenthesis comes
to the same position in the end, and everywhere else what is remembered is the same.
-/

namespace Stencil

variable {words : Nat → Text} {stencil : Stencil} {position stop : Nat}

/-! ## Positions that the scanner of the outline comes to -/

/-- The scanner comes to the position, which is no slot and does not stand in the middle of the
plain text behind one. -/
structure Reached (stencil : Stencil) (position : Nat) : Prop where
  notSlot : ¬ stencil.IsSlot position
  ends : ∀ before c, position = before + 1 → stencil.IsSlot before →
    stencil[position]? = some (.letter c) → Scene.endsPlain c = true

theorem Reached.exists_letter (reached : stencil.Reached position)
    (within : position < stencil.length) : ∃ c, stencil[position]? = some (.letter c) := by
  cases held : stencil[position]? with
  | none => exact absurd (List.getElem?_eq_none_iff.mp held) (Nat.not_le.mpr within)
  | some cell =>
      cases cell with
      | letter c => exact ⟨c, rfl⟩
      | slot number => exact absurd ⟨number, held⟩ reached.notSlot

/-- The position is that of the parenthesis in front of a slot. -/
def IsDoor (stencil : Stencil) (position : Nat) : Prop :=
  stencil.IsSlot (position + 1)

/-- Inline text ends here: at the end of the text or in front of a closing bracket. -/
def Closed (stencil : Stencil) (stop : Nat) : Prop :=
  stop = stencil.length ∨ stencil[stop]? = some (.letter ']')

theorem Closed.le_length (closed : stencil.Closed stop) : stop ≤ stencil.length := by
  rcases closed with rfl | held
  · exact Nat.le_refl _
  · exact (lt_length_of_held held).le

theorem reached_of_not_isSlot (bare : ¬ stencil.IsSlot (position + 1))
    (before : ¬ stencil.IsSlot position) : stencil.Reached (position + 1) where
  notSlot := bare
  ends _ _ same slot _ := absurd ((Nat.succ.inj same) ▸ slot) before

theorem Proper.reached_succ (proper : stencil.Proper) {c : Char}
    (held : stencil[position]? = some (.letter c)) (other : c ≠ '(') :
    stencil.Reached (position + 1) :=
  reached_of_not_isSlot (proper.not_isSlot_succ held other) (not_isSlot_of_letter held)

theorem Proper.reached_zero (proper : stencil.Proper) : stencil.Reached 0 where
  notSlot := by
    rintro ⟨number, held⟩
    rcases proper.before 0 number held with ⟨label, same, _⟩
    omega
  ends before _ same _ _ := nomatch same

theorem reached_of_none (beyond : stencil[position]? = none) : stencil.Reached position where
  notSlot := not_isSlot_of_none beyond
  ends _ _ _ _ held := nomatch beyond.symm.trans held

theorem reached_of_endsPlain {c : Char} (held : stencil[position]? = some (.letter c))
    (ends : Scene.endsPlain c = true) : stencil.Reached position where
  notSlot := not_isSlot_of_letter held
  ends _ other _ _ stands := by
    cases held.symm.trans stands
    exact ends

theorem Closed.reached (closed : stencil.Closed stop) : stencil.Reached stop := by
  rcases closed with rfl | held
  · exact reached_of_none (List.getElem?_eq_none_iff.mpr (Nat.le_refl _))
  · exact reached_of_endsPlain held (by decide)

theorem Closed.reached_succ (proper : stencil.Proper) (closed : stencil.Closed stop) :
    stencil.Reached (stop + 1) := by
  rcases closed with rfl | held
  · exact reached_of_none (List.getElem?_eq_none_iff.mpr (Nat.le_succ _))
  · exact proper.reached_succ held (by decide)

theorem Closed.place_succ (closed : stencil.Closed stop) :
    place words stencil (stop + 1) = place words stencil stop + 1 :=
  place_succ_of_not_isSlot closed.reached.notSlot

/-! ## Plain text -/

/-- Plain text runs on over the character. -/
def runsOn (c : Char) : Bool :=
  !Scene.endsPlain c

/-- A slot stands behind a bracket that ends plain text, so plain text runs into one from the
parenthesis in front of it alone. -/
theorem Proper.bare_of_runsOn (proper : stencil.Proper) (bare : ¬ stencil.IsSlot position)
    (noDoor : ¬ stencil.IsDoor position) :
    stencil.BareBetween position (stencil.drawn.pass runsOn stop position + 1) := by
  rintro spot ahead before ⟨number, held⟩
  rcases proper.before spot number held with ⟨label, rfl, bracket, _⟩
  have later : position ≤ label := by
    rcases Nat.lt_or_ge label position with short | later
    · rcases (by omega : position = label + 1 ∨ position = label + 2) with rfl | rfl
      · exact absurd ⟨number, held⟩ noDoor
      · exact absurd ⟨number, held⟩ bare
    · exact later
  have short : label < stencil.drawn.pass runsOn stop position := by omega
  rcases Source.test_of_lt_pass later short with ⟨c, shown, passes⟩
  cases (drawn_of_letter bracket).symm.trans shown
  cases passes

theorem Proper.pass_runsOn (proper : stencil.Proper) (inert : Inert words)
    (bare : ¬ stencil.IsSlot position) (noDoor : ¬ stencil.IsDoor position) (stop : Nat) :
    (filled words stencil).pass runsOn (place words stencil stop) (place words stencil position) =
      place words stencil (stencil.drawn.pass runsOn stop position) :=
  pass_filled_of inert fun spot ahead within held =>
    absurd held (proper.bare_of_runsOn bare noDoor spot ahead (Nat.lt_succ_of_le within))

theorem Closed.pass_drawn (closed : stencil.Closed stop) (ahead : position ≤ stop) :
    stencil.drawn.pass runsOn stop position =
      stencil.drawn.pass runsOn stencil.length position := by
  refine Source.pass_eq_pass_of_le ahead closed.le_length fun c shown => ?_
  rcases closed with rfl | held
  · cases (drawn_of_none (List.getElem?_eq_none_iff.mpr (Nat.le_refl _))).symm.trans shown
  · cases (drawn_of_letter held).symm.trans shown
    rfl

theorem Closed.pass_filled (inert : Inert words) (closed : stencil.Closed stop) {spot : Nat}
    (ahead : spot ≤ place words stencil stop) :
    (filled words stencil).pass runsOn (place words stencil stop) spot =
      (filled words stencil).pass runsOn (place words stencil stencil.length) spot := by
  have mono : StrictMono (place words stencil) := place_strictMono inert
  refine Source.pass_eq_pass_of_le ahead (mono.monotone closed.le_length) fun c shown => ?_
  rcases closed with rfl | held
  · cases (filled_of_none (List.getElem?_eq_none_iff.mpr (Nat.le_refl _))).symm.trans shown
  · cases (filled_of_letter held).symm.trans shown
    rfl

/-- Where plain text ends, the scanner comes to. -/
theorem reached_pass_runsOn (stencil : Stencil) (position : Nat) :
    stencil.Reached (stencil.drawn.pass runsOn stencil.length position) := by
  cases held : stencil[stencil.drawn.pass runsOn stencil.length position]? with
  | none => exact reached_of_none held
  | some cell =>
      have short := lt_length_of_held held
      cases cell with
      | letter c =>
          have stops := Source.test_pass_eq_false short (drawn_of_letter held)
          exact reached_of_endsPlain held (by simpa [runsOn] using stops)
      | slot number =>
          have stops := Source.test_pass_eq_false short (drawn_of_slot held)
          cases stops

/-! ## Through a word -/

/-- Where the plain text ends that begins with a parenthesis in front of a slot. -/
def exit (stencil : Stencil) (door : Nat) : Nat :=
  stencil.drawn.pass runsOn stencil.length door

/-- The place lies in the word behind a parenthesis, or right behind the word in the middle of
plain text. -/
def Within (words : Nat → Text) (stencil : Stencil) (door spot : Nat) : Prop :=
  place words stencil (door + 1) ≤ spot ∧
    (spot < place words stencil (door + 2) ∨
      spot = place words stencil (door + 2) ∧ ¬ stencil.Reached (door + 2))

/-- Where the next step from a place in a word leads. -/
def hop (words : Nat → Text) (stencil : Stencil) (spot : Nat) : Nat :=
  if ((filled words stencil)[spot]?).any Scene.endsPlain then spot + 1
  else (filled words stencil).pass runsOn (place words stencil stencil.length) spot

variable {door spot : Nat}

theorem Proper.parenthesis_of_isDoor (proper : stencil.Proper) (isDoor : stencil.IsDoor door) :
    stencil[door]? = some (.letter '(') := by
  rcases isDoor with ⟨number, held⟩
  rcases proper.before _ number held with ⟨label, same, _, parenthesis⟩
  rw [show door = label + 1 by omega]
  exact parenthesis

theorem IsDoor.lt_length (isDoor : stencil.IsDoor door) : door + 1 < stencil.length := by
  rcases isDoor with ⟨number, held⟩
  exact lt_length_of_held held

/-- Behind a slot stands none. -/
theorem IsDoor.not_isSlot_behind (isDoor : stencil.IsDoor door) (proper : stencil.Proper) :
    ¬ stencil.IsSlot (door + 2) := by
  rintro ⟨number, held⟩
  rcases proper.before _ number held with ⟨label, same, _, parenthesis⟩
  rcases isDoor with ⟨other, slot⟩
  rw [show door + 1 = label + 1 by omega] at slot
  cases slot.symm.trans parenthesis

/-- What stands behind a slot, where the scanner does not come to. -/
theorem IsDoor.runsOn_behind (isDoor : stencil.IsDoor door) (proper : stencil.Proper)
    (unreached : ¬ stencil.Reached (door + 2)) :
    ∃ c, stencil[door + 2]? = some (.letter c) ∧ closesSlot c = true ∧ runsOn c = true := by
  cases held : stencil[door + 2]? with
  | none => exact absurd (reached_of_none held) unreached
  | some cell =>
      rcases isDoor with ⟨number, slot⟩
      rcases proper.behind _ number cell slot held with ⟨c, rfl, closes⟩
      refine ⟨c, rfl, closes, ?_⟩
      rw [runsOn, Bool.not_eq_true']
      exact Bool.eq_false_iff.mpr fun ends => unreached (reached_of_endsPlain held ends)

theorem IsDoor.exit_eq (isDoor : stencil.IsDoor door) (proper : stencil.Proper) :
    stencil.exit door = stencil.drawn.pass runsOn stencil.length (door + 2) ∧
      door + 2 ≤ stencil.exit door := by
  have ⟨number, slot⟩ := isDoor
  have ahead : door + 2 ≤ stencil.exit door := by
    refine Source.le_pass_of isDoor.lt_length fun place later before => ?_
    rcases (by omega : place = door ∨ place = door + 1) with rfl | rfl
    · exact ⟨'(', drawn_of_letter (proper.parenthesis_of_isDoor isDoor), by decide⟩
    · exact ⟨'x', drawn_of_slot slot, by decide⟩
  exact ⟨(Source.pass_eq_pass (by omega) ahead).symm, ahead⟩

/-- Where the text behind a slot does not run on, the plain text ends with the slot. -/
theorem IsDoor.exit_of_reached (isDoor : stencil.IsDoor door) (proper : stencil.Proper)
    (reached : stencil.Reached (door + 2)) : stencil.exit door = door + 2 := by
  rw [(isDoor.exit_eq proper).1]
  refine Source.pass_eq_of (Nat.le_refl _) (Nat.le_max_left _ _)
    (fun place ahead before => absurd before (Nat.not_lt.mpr ahead)) fun short c shown => ?_
  have held : stencil[door + 2]? = some (.letter c) := letter_of_bare reached.notSlot shown
  rw [runsOn, reached.ends (door + 1) c rfl isDoor held]
  rfl

/-- A step from a parenthesis in front of a slot, or from a place in the word, leads further into
the word or behind the plain text. -/
theorem IsDoor.within_hop (isDoor : stencil.IsDoor door) (proper : stencil.Proper)
    (inert : Inert words)
    (there : spot = place words stencil door ∨ Within words stencil door spot) :
    spot < hop words stencil spot ∧
      (Within words stencil door (hop words stencil spot) ∨
        hop words stencil spot = place words stencil (stencil.exit door)) := by
  have mono : StrictMono (place words stencil) := place_strictMono inert
  have parenthesis := proper.parenthesis_of_isDoor isDoor
  have next : place words stencil (door + 1) = place words stencil door + 1 :=
    place_succ_of_letter parenthesis
  have nonempty : place words stencil (door + 1) < place words stencil (door + 2) :=
    place_lt_succ inert (door + 1)
  have inside : spot ≤ place words stencil (door + 2) := by
    rcases there with rfl | ⟨_, before | ⟨rfl, _⟩⟩ <;> omega
  have later : place words stencil door ≤ spot := by
    rcases there with rfl | ⟨ahead, _⟩ <;> omega
  -- What stands at the place: a character of the word, or plain text.
  obtain ⟨c, stands, plain⟩ : ∃ c, (filled words stencil)[spot]? = some c ∧
      (runsOn c = true ∨ spot < place words stencil (door + 2) ∧
        place words stencil (door + 1) ≤ spot) := by
    rcases there with rfl | ⟨ahead, before | ⟨rfl, unreached⟩⟩
    · exact ⟨'(', filled_of_letter parenthesis, Or.inl (by decide)⟩
    · rcases isDoor.inertBetween inert spot ahead before with ⟨c, stands, _⟩
      exact ⟨c, stands, Or.inr ⟨before, ahead⟩⟩
    · rcases isDoor.runsOn_behind proper unreached with ⟨c, held, _, plain⟩
      exact ⟨c, filled_of_letter held, Or.inl plain⟩
  unfold hop
  rw [stands, Option.any_some]
  by_cases ends : Scene.endsPlain c = true
  · rw [if_pos ends]
    rcases plain with plain | ⟨before, ahead⟩
    · rw [runsOn, ends] at plain
      cases plain
    · refine ⟨Nat.lt_succ_self spot, ?_⟩
      rcases Nat.eq_or_lt_of_le (Nat.succ_le_of_lt before) with same | short
      · by_cases reached : stencil.Reached (door + 2)
        · rw [isDoor.exit_of_reached proper reached]
          exact Or.inr same
        · exact Or.inl ⟨by omega, Or.inr ⟨same, reached⟩⟩
      · exact Or.inl ⟨by omega, Or.inl short⟩
  · rw [if_neg ends]
    have passes : runsOn c = true := by
      rw [runsOn, Bool.eq_false_iff.mpr ends]
      rfl
    have within : spot < place words stencil stencil.length := by
      rw [← size_filled]
      exact (Array.getElem?_eq_some_iff.mp stands).1
    have further : spot + 1 ≤
        (filled words stencil).pass runsOn (place words stencil stencil.length) spot := by
      refine Source.le_pass_of within fun place ahead before => ?_
      exact ⟨c, (by omega : place = spot) ▸ stands, passes⟩
    refine ⟨further, ?_⟩
    rcases Nat.lt_or_ge
        ((filled words stencil).pass runsOn (place words stencil stencil.length) spot)
        (place words stencil (door + 2)) with short | reaches
    · exact Or.inl ⟨by omega, Or.inl short⟩
    · have noDoor : ¬ stencil.IsDoor (door + 2) := by
        rintro ⟨number, slot⟩
        rcases proper.before _ number slot with ⟨label, same, bracket, _⟩
        rcases isDoor with ⟨other, held⟩
        rw [show label = door + 1 by omega, held] at bracket
        cases bracket
      rw [← Source.pass_eq_pass inside reaches,
        proper.pass_runsOn inert (isDoor.not_isSlot_behind proper) noDoor,
        ← (isDoor.exit_eq proper).1]
      exact Or.inr rfl

end Stencil

/-! ## What is remembered -/

namespace Memory

/-- Where the construct at a position is remembered to end. -/
def end? (memory : Memory) (position : Nat) : Option Nat :=
  (memory.ends[position]?).join

@[simp] theorem end?_blank (size position : Nat) : (blank size).end? position = none := by
  rw [end?, blank, Array.getElem?_replicate]
  split <;> rfl

theorem end?_remember {memory : Memory} {position : Nat} (within : position < memory.ends.size)
    (stop other : Nat) :
    (memory.remember position stop).end? other =
      if position = other then some stop else memory.end? other := by
  rw [end?, remember, Array.getElem?_setIfInBounds, if_pos within]
  split
  · rfl
  · rfl

@[simp] theorem size_remember (memory : Memory) (position stop : Nat) :
    (memory.remember position stop).ends.size = memory.ends.size :=
  Array.size_setIfInBounds

end Memory

namespace Stencil

/-!
The memory of a filled text.  It says of each position that the scanner of the outline comes to what
the memory of the outline says.  Where the outline remembers a step over a slot, the filled text
remembers a trail of steps through the word.
-/

variable {words : Nat → Text} {stencil : Stencil} {door spot : Nat} {memory memory' : Memory}

/-- Remembered steps from a place to another one, through a word. -/
inductive Trail (words : Nat → Text) (stencil : Stencil) (memory : Memory) (door : Nat) :
    Nat → Nat → Prop where
  | last {spot stop : Nat} (known : memory.end? spot = some stop) (ahead : spot < stop) :
      Trail words stencil memory door spot stop
  | step {spot next stop : Nat} (known : memory.end? spot = some next) (ahead : spot < next)
      (within : Within words stencil door next)
      (rest : Trail words stencil memory door next stop) :
      Trail words stencil memory door spot stop

/-- What is remembered of the filled text follows what is remembered of the outline. -/
structure Follows (words : Nat → Text) (stencil : Stencil) (memory memory' : Memory) : Prop where
  size : memory.ends.size = stencil.length + 1
  size' : memory'.ends.size = place words stencil stencil.length + 1
  ticks : SameTicks words stencil memory memory'
  /-- The scanner of the outline goes on to where it comes to. -/
  ahead : ∀ position stop, memory.end? position = some stop →
    position < stop ∧ stencil.Reached stop
  ends : ∀ position, stencil.Reached position → ¬ stencil.IsDoor position →
    memory'.end? (place words stencil position) =
      (memory.end? position).map (place words stencil)
  door : ∀ door, stencil.IsDoor door →
    (memory.end? door = none ∧ memory'.end? (place words stencil door) = none) ∨
      ∃ stop, memory.end? door = some stop ∧
        Trail words stencil memory' door (place words stencil door) (place words stencil stop)
  /-- Nothing is remembered of a place in a word but the next step. -/
  word : ∀ door spot, stencil.IsDoor door → Within words stencil door spot →
    memory'.end? spot = none ∨ memory'.end? spot = some (hop words stencil spot)

theorem IsDoor.reached (isDoor : stencil.IsDoor door) (proper : stencil.Proper) :
    stencil.Reached door where
  notSlot := not_isSlot_of_letter (proper.parenthesis_of_isDoor isDoor)
  ends before c same slot _ := by
    rcases isDoor with ⟨number, held⟩
    rcases proper.before _ number held with ⟨label, found, bracket, _⟩
    rcases slot with ⟨other, stands⟩
    rw [show before = label by omega] at stands
    cases stands.symm.trans bracket

/-- No place in a word is that of a position that the scanner of the outline comes to. -/
theorem Within.ne_place (inert : Inert words) (within : Within words stencil door spot)
    (isDoor : stencil.IsDoor door) {position : Nat} (reached : stencil.Reached position) :
    spot ≠ place words stencil position := by
  have mono : StrictMono (place words stencil) := place_strictMono inert
  rintro rfl
  rcases within with ⟨ahead, before | ⟨same, unreached⟩⟩
  · have first := mono.le_iff_le.mp ahead
    have second := mono.lt_iff_lt.mp before
    rw [show position = door + 1 by omega] at reached
    exact reached.notSlot isDoor
  · rw [← mono.injective same] at unreached
    exact unreached reached

/-- The words behind different parentheses have no place in common. -/
theorem Within.door_eq (proper : stencil.Proper) (inert : Inert words)
    (within : Within words stencil door spot) (isDoor : stencil.IsDoor door) {other : Nat}
    (otherDoor : stencil.IsDoor other) (also : Within words stencil other spot) : door = other := by
  have mono : StrictMono (place words stencil) := place_strictMono inert
  -- Two parentheses in front of slots stand more than a word apart.
  have apart : ∀ {first second : Nat}, stencil.IsDoor first → stencil.IsDoor second →
      first < second → first + 2 < second + 1 := by
    intro first second isFirst isSecond before
    have parenthesis := proper.parenthesis_of_isDoor isSecond
    rcases isFirst with ⟨number, held⟩
    rcases Nat.eq_or_lt_of_le before with same | further
    · rw [← same] at parenthesis
      cases held.symm.trans parenthesis
    · omega
  have upper : ∀ {number : Nat}, Within words stencil number spot →
      spot ≤ place words stencil (number + 2) := by
    rintro number ⟨_, before | ⟨same, _⟩⟩ <;> omega
  rcases Nat.lt_trichotomy door other with before | same | behind
  · have far := mono (apart isDoor otherDoor before)
    have near := upper within
    have start := also.1
    omega
  · exact same
  · have far := mono (apart otherDoor isDoor behind)
    have near := upper also
    have start := within.1
    omega

/-- A trail stays where the memory of its word stays. -/
theorem Trail.congr {other : Memory} {stop : Nat}
    (trail : Trail words stencil memory door spot stop)
    (there : spot = place words stencil door ∨ Within words stencil door spot)
    (same : ∀ spot, spot = place words stencil door ∨ Within words stencil door spot →
      other.end? spot = memory.end? spot) :
    Trail words stencil other door spot stop := by
  induction trail with
  | last known ahead => exact .last ((same _ there).trans known) ahead
  | step known ahead within rest inductionHypothesis =>
      exact .step ((same _ there).trans known) ahead within (inductionHypothesis (Or.inr within))

namespace Follows

theorem blank (words : Nat → Text) (stencil : Stencil) :
    Follows words stencil (Memory.blank stencil.length)
      (Memory.blank (place words stencil stencil.length)) where
  size := Array.size_replicate
  size' := Array.size_replicate
  ticks := ⟨rfl, rfl⟩
  ahead position stop known := by
    rw [Memory.end?_blank] at known
    cases known
  ends position _ _ := by
    rw [Memory.end?_blank, Memory.end?_blank]
    rfl
  door door _ := Or.inl ⟨Memory.end?_blank _ _, Memory.end?_blank _ _⟩
  word door spot _ _ := Or.inl (Memory.end?_blank _ _)

/-- Runs of backticks are remembered apart from the ends of constructs. -/
theorem of_ticks (follows : Follows words stencil memory memory') {next next' : Memory}
    (same : next.ends = memory.ends) (same' : next'.ends = memory'.ends)
    (ticks : SameTicks words stencil next next') : Follows words stencil next next' := by
  have known (position : Nat) : next.end? position = memory.end? position := by
    rw [Memory.end?, same, Memory.end?]
  have known' (position : Nat) : next'.end? position = memory'.end? position := by
    rw [Memory.end?, same', Memory.end?]
  refine ⟨same ▸ follows.size, same' ▸ follows.size', ticks, ?_, ?_, ?_, ?_⟩
  · simpa only [known] using follows.ahead
  · simpa only [known, known'] using follows.ends
  · intro door isDoor
    rw [known, known']
    rcases follows.door door isDoor with unknown | ⟨stop, found, trail⟩
    · exact Or.inl unknown
    · exact Or.inr ⟨stop, found, trail.congr (Or.inl rfl) fun spot _ => known' spot⟩
  · simpa only [known'] using follows.word

/-- A new memory of the outline at one position, and of the filled text at its place and in the word
behind it. -/
theorem update (follows : Follows words stencil memory memory') (proper : stencil.Proper)
    (inert : Inert words) {position stop : Nat} {next : Memory} (within : position ≤ stencil.length)
    (reached : stencil.Reached position) (ahead : position < stop) (goes : stencil.Reached stop)
    (size : next.ends.size = memory'.ends.size) (ticks : next.ticks = memory'.ticks)
    (sawAll : next.sawAllTicks = memory'.sawAllTicks)
    (others : ∀ spot, spot ≠ place words stencil position →
      ¬ (stencil.IsDoor position ∧ Within words stencil position spot) →
        next.end? spot = memory'.end? spot)
    (ends : ¬ stencil.IsDoor position →
      next.end? (place words stencil position) = some (place words stencil stop))
    (door : stencil.IsDoor position →
      Trail words stencil next position (place words stencil position)
          (place words stencil stop) ∧
        ∀ spot, Within words stencil position spot →
          next.end? spot = none ∨ next.end? spot = some (hop words stencil spot)) :
    Follows words stencil (memory.remember position stop) next := by
  have mono : StrictMono (place words stencil) := place_strictMono inert
  have inBounds : position < memory.ends.size := follows.size ▸ Nat.lt_succ_of_le within
  have apart : ∀ other, stencil.Reached other → position ≠ other →
      next.end? (place words stencil other) = memory'.end? (place words stencil other) :=
    fun other reachedOther different => others _
      (fun same => different (mono.injective same).symm)
      fun ⟨isDoor, inWord⟩ => inWord.ne_place inert isDoor reachedOther rfl
  refine ⟨(Memory.size_remember ..).trans follows.size, size.trans follows.size',
    ⟨ticks.trans follows.ticks.ticks, sawAll.trans follows.ticks.sawAll⟩, ?_, ?_, ?_, ?_⟩
  · intro other last known
    rw [Memory.end?_remember inBounds] at known
    split at known
    · next same =>
        cases known
        exact ⟨same ▸ ahead, goes⟩
    · exact follows.ahead other last known
  · intro other reachedOther noDoor
    rw [Memory.end?_remember inBounds]
    split
    · next same =>
        subst same
        exact ends noDoor
    · next different =>
        rw [apart other reachedOther different]
        exact follows.ends other reachedOther noDoor
  · intro other isDoor
    rw [Memory.end?_remember inBounds]
    split
    · next same =>
        subst same
        exact Or.inr ⟨stop, rfl, (door isDoor).1⟩
    · next different =>
        have reachedOther := isDoor.reached proper
        rw [apart other reachedOther different]
        rcases follows.door other isDoor with unknown | ⟨last, known, trail⟩
        · exact Or.inl unknown
        · refine Or.inr ⟨last, known, trail.congr (Or.inl rfl) ?_⟩
          rintro spot (rfl | inWord)
          · exact apart other reachedOther different
          · exact others spot (inWord.ne_place inert isDoor reached) fun ⟨own, inOwn⟩ =>
              different (inOwn.door_eq proper inert own isDoor inWord)
  · intro other spot isDoor inWord
    by_cases same : position = other
    · subst same
      exact (door isDoor).2 spot inWord
    · rw [others spot (inWord.ne_place inert isDoor reached) fun ⟨own, inOwn⟩ =>
        same (inOwn.door_eq proper inert own isDoor inWord)]
      exact follows.word other spot isDoor inWord

/-- Both texts remember the same of a position that the scanner of the outline comes to. -/
theorem remember (follows : Follows words stencil memory memory') (proper : stencil.Proper)
    (inert : Inert words) {position stop : Nat} (within : position ≤ stencil.length)
    (reached : stencil.Reached position) (ahead : position < stop) (goes : stencil.Reached stop) :
    Follows words stencil (memory.remember position stop)
      (memory'.remember (place words stencil position) (place words stencil stop)) := by
  have mono : StrictMono (place words stencil) := place_strictMono inert
  have inBounds : place words stencil position < memory'.ends.size :=
    follows.size' ▸ Nat.lt_succ_of_le (mono.monotone within)
  have own : (memory'.remember (place words stencil position) (place words stencil stop)).end?
      (place words stencil position) = some (place words stencil stop) := by
    rw [Memory.end?_remember inBounds, if_pos rfl]
  refine follows.update proper inert within reached ahead goes (Memory.size_remember ..) rfl rfl
    (fun spot different _ => ?_) (fun _ => own) fun isDoor => ⟨.last own (mono ahead), ?_⟩
  · rw [Memory.end?_remember inBounds, if_neg different.symm]
  · intro spot inWord
    rw [Memory.end?_remember inBounds, if_neg (inWord.ne_place inert isDoor reached).symm]
    exact follows.word position spot isDoor inWord

end Follows

end Stencil

end Markup
end Crosslink

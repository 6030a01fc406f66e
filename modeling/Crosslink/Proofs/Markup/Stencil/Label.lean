import Crosslink.Proofs.Markup.Stencil.Reach

namespace Crosslink
namespace Markup
namespace Stencil

/-!
Labels of a filled text.  The scanner that looks for the end of a label goes from construct to
construct.  Where it comes to a parenthesis in front of a slot it is behind the plain text after one
step in the outline, and after the steps of the word in the filled text; everywhere else it takes
the same step in both.
-/

open Scene

variable {words : Nat → Text} {stencil : Stencil} {stop door spot : Nat}
  {memory memory' : Memory}

/-! ## Steps through a word -/

/-- The character begins no construct and belongs to no label. -/
def isQuiet (c : Char) : Bool :=
  !(['\n', '\\', '\x60', '[', ']', '!', '<', '&'] : Text).contains c

theorem isQuiet_of_isInert {c : Char} (plain : isInert c = true) : isQuiet c = true := by
  have other : ∀ {mark : Char}, isInert mark = false → c ≠ mark := ne_of_isInert plain
  simp [isQuiet, other (by decide : isInert '\n' = false), other (by decide : isInert '\\' = false),
    other (by decide : isInert '\x60' = false), other (by decide : isInert '[' = false),
    other (by decide : isInert ']' = false), other (by decide : isInert '!' = false),
    other (by decide : isInert '<' = false), other (by decide : isInert '&' = false)]

/-- In front of a word, in it and right behind it stands nothing that begins a construct. -/
theorem IsDoor.exists_quiet (isDoor : stencil.IsDoor door) (proper : stencil.Proper)
    (inert : Inert words)
    (there : spot = place words stencil door ∨ Within words stencil door spot) :
    ∃ c, (filled words stencil)[spot]? = some c ∧ isQuiet c = true := by
  rcases there with rfl | ⟨ahead, before | ⟨rfl, unreached⟩⟩
  · exact ⟨'(', filled_of_letter (proper.parenthesis_of_isDoor isDoor), by decide⟩
  · rcases isDoor.inertBetween inert spot ahead before with ⟨c, stands, plain⟩
    exact ⟨c, stands, isQuiet_of_isInert plain⟩
  · rcases isDoor.runsOn_behind proper unreached with ⟨c, held, closes, plain⟩
    refine ⟨c, filled_of_letter held, ?_⟩
    simp only [closesSlot, Bool.or_eq_true, decide_eq_true_eq] at closes
    rcases closes with (((rfl | rfl) | rfl) | rfl) | rfl
    · decide
    · decide
    · decide
    · cases plain
    · decide

theorem IsDoor.quiet (isDoor : stencil.IsDoor door) (proper : stencil.Proper) (inert : Inert words)
    (there : spot = place words stencil door ∨ Within words stencil door spot) :
    (filled words stencil).has spot '[' = false ∧ (filled words stencil).has spot ']' = false := by
  rcases isDoor.exists_quiet proper inert there with ⟨c, stands, quiet⟩
  rw [Source.has, Source.has, stands, beq_eq_false_iff_ne, beq_eq_false_iff_ne]
  constructor <;> rintro ⟨⟩ <;> cases quiet

theorem IsDoor.exit_le (isDoor : stencil.IsDoor door) (closed : stencil.Closed stop)
    (before : door < stop) (proper : stencil.Proper) : door + 2 ≤ stencil.exit door ∧
      stencil.exit door ≤ stop := by
  refine ⟨(isDoor.exit_eq proper).2, ?_⟩
  have bounded : stencil.drawn.pass runsOn stop door ≤ max door stop := Source.pass_le stop door
  rw [exit, ← closed.pass_drawn before.le]
  omega

theorem IsDoor.lt_stop (isDoor : stencil.IsDoor door) (closed : stencil.Closed stop)
    (before : door < stop) (proper : stencil.Proper) (inert : Inert words)
    (there : spot = place words stencil door ∨ Within words stencil door spot) :
    spot < place words stencil stop := by
  have mono : StrictMono (place words stencil) := place_strictMono inert
  have bounds := isDoor.exit_le closed before proper
  have far : door + 2 ≤ stop := bounds.1.trans bounds.2
  rcases there with rfl | ⟨_, short | ⟨rfl, unreached⟩⟩
  · exact mono before
  · exact Nat.lt_of_lt_of_le short (mono.monotone far)
  · refine mono (Nat.lt_of_le_of_ne far fun same => unreached ?_)
    exact same ▸ closed.reached

/-- Where no bracket stands, a label goes on behind the construct. -/
theorem labelEnd?_of_step {scene : Scene} {skip : Skipper} {position next : Nat}
    (before : position < scene.stop) (notOpening : scene.source.has position '[' = false)
    (notClosing : scene.source.has position ']' = false)
    (goes : skip position memory = (next, memory')) (mayHoldLink : Bool) (fuel opened : Nat) :
    scene.labelEnd? skip mayHoldLink (fuel + 1) opened position memory =
      scene.labelEnd? skip mayHoldLink fuel opened next memory' := by
  rw [labelEnd?, if_neg (Nat.not_le.mpr before)]
  simp only [notClosing, notOpening, goes, Bool.false_and, Bool.false_eq_true, if_false]

/-- A remembered construct is passed without looking at it. -/
def Recalls (skip : Skipper) : Prop :=
  ∀ position memory stop, Memory.end? memory position = some stop →
    skip position memory = (stop, memory)

/-- A way of passing over constructs takes the steps of a word. -/
def Hops (words : Nat → Text) (stencil : Stencil) (door : Nat) (skip : Skipper) : Prop :=
  ∀ spot memory, spot = place words stencil door ∨ Within words stencil door spot →
    Memory.end? memory spot = none →
      skip spot memory =
        (hop words stencil spot, memory.remember spot (hop words stencil spot))

variable {skip skip' : Skipper}

/-- A label goes on behind a trail. -/
theorem Trail.labelEnd? {last : Nat} (trail : Trail words stencil memory' door spot last)
    (recalls : Recalls skip') (isDoor : stencil.IsDoor door) (closed : stencil.Closed stop)
    (before : door < stop) (proper : stencil.Proper) (inert : Inert words)
    (there : spot = place words stencil door ∨ Within words stencil door spot) (mayHoldLink : Bool)
    (opened : Nat) {fuel : Nat} (enough : place words stencil stop - spot ≤ fuel) :
    ∃ rest, place words stencil stop - last ≤ rest ∧
      (scene words stencil stop).labelEnd? skip' mayHoldLink fuel opened spot memory' =
        (scene words stencil stop).labelEnd? skip' mayHoldLink rest opened last memory' := by
  induction trail generalizing fuel with
  | last known ahead =>
      have short := isDoor.lt_stop closed before proper inert there
      have quiet := isDoor.quiet proper inert there
      obtain ⟨fuel, rfl⟩ : ∃ less, fuel = less + 1 := ⟨fuel - 1, by omega⟩
      exact ⟨fuel, by omega,
        labelEnd?_of_step short quiet.1 quiet.2 (recalls _ _ _ known) mayHoldLink fuel opened⟩
  | @step spot next _ known ahead within rest inductionHypothesis =>
      have short := isDoor.lt_stop closed before proper inert there
      have quiet := isDoor.quiet proper inert there
      obtain ⟨fuel, rfl⟩ : ∃ less, fuel = less + 1 := ⟨fuel - 1, by omega⟩
      have enough : place words stencil stop - next ≤ fuel := by omega
      rcases inductionHypothesis (Or.inr within) enough with ⟨rest, further, same⟩
      exact ⟨rest, further,
        (labelEnd?_of_step short quiet.1 quiet.2 (recalls _ _ _ known) mayHoldLink fuel opened).trans
          same⟩

/-- What comes of the steps from a place in a word: they are remembered, and nothing else is. -/
structure Walked (words : Nat → Text) (stencil : Stencil) (door spot : Nat) (memory next : Memory) :
    Prop where
  size : next.ends.size = memory.ends.size
  ticks : next.ticks = memory.ticks
  sawAll : next.sawAllTicks = memory.sawAllTicks
  others : ∀ other, ¬ (spot ≤ other ∧
    (other = place words stencil door ∨ Within words stencil door other)) →
      next.end? other = memory.end? other
  word : ∀ other, Within words stencil door other →
    next.end? other = none ∨ next.end? other = some (hop words stencil other)
  trail : Trail words stencil next door spot (place words stencil (stencil.exit door))

/-- A label goes on behind the plain text that a word is part of. -/
theorem IsDoor.labelEnd?_walk (isDoor : stencil.IsDoor door) (recalls : Recalls skip')
    (hops : Hops words stencil door skip') (closed : stencil.Closed stop) (before : door < stop)
    (proper : stencil.Proper) (inert : Inert words)
    (there : spot = place words stencil door ∨ Within words stencil door spot)
    (size : memory'.ends.size = place words stencil stencil.length + 1)
    (own : memory'.end? spot = none ∨ memory'.end? spot = some (hop words stencil spot))
    (word : ∀ other, Within words stencil door other →
      memory'.end? other = none ∨ memory'.end? other = some (hop words stencil other))
    (mayHoldLink : Bool) (opened : Nat) {fuel : Nat}
    (enough : place words stencil stop - spot ≤ fuel) :
    ∃ rest next, place words stencil stop - place words stencil (stencil.exit door) ≤ rest ∧
      (scene words stencil stop).labelEnd? skip' mayHoldLink fuel opened spot memory' =
        (scene words stencil stop).labelEnd? skip' mayHoldLink rest opened
          (place words stencil (stencil.exit door)) next ∧
      Walked words stencil door spot memory' next := by
  have mono : StrictMono (place words stencil) := place_strictMono inert
  induction fuel generalizing spot memory' with
  | zero =>
      have short := isDoor.lt_stop closed before proper inert there
      omega
  | succ fuel inductionHypothesis =>
      have short := isDoor.lt_stop closed before proper inert there
      have quiet := isDoor.quiet proper inert there
      rcases isDoor.within_hop proper inert there with ⟨ahead, goes⟩
      -- Whether the step is remembered or not, it is taken, and it is remembered then.
      obtain ⟨known, taken, size', ticks', sawAll', own', others'⟩ : ∃ known : Memory,
          skip' spot memory' = (hop words stencil spot, known) ∧
            known.ends.size = memory'.ends.size ∧ known.ticks = memory'.ticks ∧
            known.sawAllTicks = memory'.sawAllTicks ∧
            known.end? spot = some (hop words stencil spot) ∧
            ∀ other, other ≠ spot → known.end? other = memory'.end? other := by
        rcases own with unknown | remembered
        · have inBounds : spot < memory'.ends.size := by
            have far := mono.monotone closed.le_length
            omega
          refine ⟨_, hops spot memory' there unknown, Memory.size_remember .., rfl, rfl, ?_, ?_⟩
          · rw [Memory.end?_remember inBounds, if_pos rfl]
          · intro other different
            rw [Memory.end?_remember inBounds, if_neg different.symm]
        · exact ⟨memory', recalls spot memory' _ remembered, rfl, rfl, rfl, remembered,
            fun _ _ => rfl⟩
      have word' : ∀ other, Within words stencil door other →
          known.end? other = none ∨ known.end? other = some (hop words stencil other) := by
        intro other inWord
        by_cases same : other = spot
        · exact Or.inr (same ▸ own')
        · rw [others' other same]
          exact word other inWord
      have step : (scene words stencil stop).labelEnd? skip' mayHoldLink (fuel + 1) opened spot
            memory' =
          (scene words stencil stop).labelEnd? skip' mayHoldLink fuel opened
            (hop words stencil spot) known :=
        labelEnd?_of_step short quiet.1 quiet.2 taken mayHoldLink fuel opened
      rcases goes with within | exits
      · rcases inductionHypothesis (Or.inr within) (size'.trans size) (word' _ within) word'
          (by omega) with ⟨rest, next, further, same, walked⟩
        refine ⟨rest, next, further, step.trans same, walked.size.trans size',
          walked.ticks.trans ticks', walked.sawAll.trans sawAll', ?_, walked.word, ?_⟩
        · intro other outside
          rw [walked.others other fun ⟨later, inside⟩ => outside ⟨by omega, inside⟩]
          refine others' other ?_
          rintro rfl
          exact outside ⟨Nat.le_refl _, there⟩
        · refine .step ?_ ahead within walked.trail
          rw [walked.others spot fun ⟨later, _⟩ => absurd later (Nat.not_le.mpr ahead)]
          exact own'
      · refine ⟨fuel, known, by omega, exits ▸ step, size', ticks', sawAll', ?_, word', ?_⟩
        · intro other outside
          refine others' other ?_
          rintro rfl
          exact outside ⟨Nat.le_refl _, there⟩
        · exact exits ▸ .last own' ahead

end Stencil
end Markup
end Crosslink

import Crosslink.Proofs.Markup.Stencil.Label

namespace Crosslink
namespace Markup
namespace Stencil

/-!
Passing over the constructs of a filled text.  However deep labels are looked into, each construct
of the filled text ends at the place of where it ends in the outline, and what is remembered follows
what is remembered there.  A step at one level rests on the labels at the level below.
-/

open Scene

variable {words : Nat → Text} {stencil : Stencil} {stop position : Nat}
  {memory memory' : Memory} {skip skip' : Skipper}

/-- Two ways of passing over constructs, in the outline and in the filled text, take the same steps
but for those through words. -/
structure Matches (words : Nat → Text) (stencil : Stencil) (stop : Nat) (skip skip' : Skipper) :
    Prop where
  recalls : Recalls skip
  recalls' : Recalls skip'
  reached : ∀ position memory memory', position < stop → stencil.Reached position →
    ¬ stencil.IsDoor position → Follows words stencil memory memory' →
      (skip' (place words stencil position) memory').1 =
          place words stencil (skip position memory).1 ∧
        Follows words stencil (skip position memory).2
          (skip' (place words stencil position) memory').2 ∧
        position < (skip position memory).1 ∧ stencil.Reached (skip position memory).1
  /-- Below the deepest level nothing is passed but all the rest. -/
  door : ∀ door memory memory', stencil.IsDoor door → door < stop →
    Memory.end? memory door = none → Memory.end? memory' (place words stencil door) = none →
      (skip door memory = (stop + 1, memory.remember door (stop + 1)) ∧
          skip' (place words stencil door) memory' =
            (place words stencil (stop + 1), memory'.remember (place words stencil door)
              (place words stencil (stop + 1)))) ∨
        (skip door memory = (stencil.exit door, memory.remember door (stencil.exit door)) ∧
          Hops words stencil door skip')

/-- What a search for the end of a label comes to in the outline and in the filled text. -/
structure SameEnd (words : Nat → Text) (stencil : Stencil) (start stop : Nat)
    (found found' : Option Nat × Memory) : Prop where
  last? : found'.1 = found.1.map (place words stencil)
  follows : Follows words stencil found.2 found'.2
  bracket : ∀ closing, found.1 = some closing →
    start ≤ closing ∧ closing < stop ∧ stencil[closing]? = some (.letter ']')

theorem SameEnd.mono {first second : Nat} {found found' : Option Nat × Memory}
    (same : SameEnd words stencil second stop found found') (ordered : first ≤ second) :
    SameEnd words stencil first stop found found' where
  last? := same.last?
  follows := same.follows
  bracket closing closes := by
    have bounds := same.bracket closing closes
    exact ⟨ordered.trans bounds.1, bounds.2⟩

section Label

variable (matching : Matches words stencil stop skip skip') (closed : stencil.Closed stop)
  (proper : stencil.Proper) (inert : Inert words)
include matching closed proper inert

/-- At the parenthesis in front of a slot the search in the outline takes one step, and that in the
filled text as many as lead through the word. -/
theorem labelEnd?_door (mayHoldLink : Bool) (opened fuel : Nat) {fuel' : Nat}
    (follows : Follows words stencil memory memory') (reached : stencil.Reached position)
    (isDoor : stencil.IsDoor position) (before : position < stop)
    (enough' : place words stencil stop - place words stencil position ≤ fuel') :
    ∃ next later later' rest, position < next ∧ stencil.Reached next ∧
      Follows words stencil later later' ∧
      place words stencil stop - place words stencil next ≤ rest ∧
      (stencil.sketch stop).labelEnd? skip mayHoldLink (fuel + 1) opened position memory =
        (stencil.sketch stop).labelEnd? skip mayHoldLink fuel opened next later ∧
      (scene words stencil stop).labelEnd? skip' mayHoldLink fuel' opened
          (place words stencil position) memory' =
        (scene words stencil stop).labelEnd? skip' mayHoldLink rest opened
          (place words stencil next) later' := by
  have mono : StrictMono (place words stencil) := place_strictMono inert
  have placed := mono before
  have parenthesis := proper.parenthesis_of_isDoor isDoor
  have quiet : stencil.drawn.has position '[' = false ∧
      stencil.drawn.has position ']' = false := by
    rw [Source.has, Source.has, drawn_of_letter parenthesis]
    decide
  have quiet' := isDoor.quiet proper inert (Or.inl rfl)
  have step {next : Nat} {later : Memory} (goes : skip position memory = (next, later)) :
      (stencil.sketch stop).labelEnd? skip mayHoldLink (fuel + 1) opened position memory =
        (stencil.sketch stop).labelEnd? skip mayHoldLink fuel opened next later :=
    labelEnd?_of_step before quiet.1 quiet.2 goes mayHoldLink fuel opened
  rcases follows.door position isDoor with ⟨unknown, unknown'⟩ | ⟨last, known, trail⟩
  · rcases matching.door position memory memory' isDoor before unknown unknown' with
      ⟨goes, goes'⟩ | ⟨goes, hops⟩
    · obtain ⟨fuel', rfl⟩ : ∃ less, fuel' = less + 1 := ⟨fuel' - 1, by omega⟩
      have ahead : position < stop + 1 := Nat.lt_succ_of_lt before
      have further : place words stencil stop < place words stencil (stop + 1) :=
        mono (Nat.lt_succ_self stop)
      exact ⟨stop + 1, _, _, fuel', ahead, closed.reached_succ proper,
        follows.remember proper inert (before.le.trans closed.le_length) reached ahead
          (closed.reached_succ proper),
        by omega, step goes, labelEnd?_of_step placed quiet'.1 quiet'.2 goes' mayHoldLink fuel' opened⟩
    · rcases isDoor.labelEnd?_walk matching.recalls' hops closed before proper inert
        (Or.inl rfl) follows.size' (Or.inl unknown')
        (fun other inWord => follows.word position other isDoor inWord) mayHoldLink opened
        enough' with ⟨rest, next, further, same, walked⟩
      have bounds := isDoor.exit_le closed before proper
      have goesOn : stencil.Reached (stencil.exit position) := reached_pass_runsOn _ _
      have ahead : position < stencil.exit position := by omega
      refine ⟨_, _, next, rest, ahead, goesOn, ?_, further, step goes, same⟩
      refine follows.update proper inert (before.le.trans closed.le_length) reached ahead goesOn
        walked.size walked.ticks walked.sawAll ?_ (fun noDoor => absurd isDoor noDoor)
        fun _ => ⟨walked.trail, walked.word⟩
      intro spot different outside
      refine walked.others spot fun own => ?_
      exact own.2.elim different fun inWord => outside ⟨isDoor, inWord⟩
  · rcases trail.labelEnd? matching.recalls' isDoor closed before proper inert (Or.inl rfl)
      mayHoldLink opened enough' with ⟨rest, further, same⟩
    have bounds := follows.ahead position last known
    exact ⟨last, memory, memory', rest, bounds.1, bounds.2, follows, further,
      step (matching.recalls position memory last known), same⟩

omit matching closed proper inert in
theorem labelEnd?_of_le {scene : Scene} {skip : Skipper} {fuel position : Nat} {memory : Memory}
    (beyond : scene.stop ≤ position) (mayHoldLink : Bool) (opened : Nat) :
    scene.labelEnd? skip mayHoldLink fuel opened position memory = (none, memory) := by
  cases fuel with
  | zero => rfl
  | succ fuel => rw [labelEnd?, if_pos beyond]

/-- A label of the filled text ends where it ends in the outline. -/
theorem labelEnd?_scene (mayHoldLink : Bool) (opened : Nat) {fuel fuel' : Nat}
    (follows : Follows words stencil memory memory') (reached : stencil.Reached position)
    (enough : stop - position ≤ fuel)
    (enough' : place words stencil stop - place words stencil position ≤ fuel') :
    SameEnd words stencil position stop
      ((stencil.sketch stop).labelEnd? skip mayHoldLink fuel opened position memory)
      ((scene words stencil stop).labelEnd? skip' mayHoldLink fuel' opened
        (place words stencil position) memory') := by
  have mono : StrictMono (place words stencil) := place_strictMono inert
  have ended {position : Nat} {later later' : Memory} (follows : Follows words stencil later later') :
      SameEnd words stencil position stop (none, later) (none, later') :=
    ⟨rfl, follows, by rintro _ ⟨⟩⟩
  induction fuel generalizing fuel' opened position memory memory' with
  | zero =>
      have beyond : stop ≤ position := by omega
      rw [labelEnd?_of_le beyond, labelEnd?_of_le (mono.monotone beyond)]
      exact ended follows
  | succ fuel inductionHypothesis =>
    rcases Nat.lt_or_ge position stop with before | beyond
    · have placed := mono before
      -- The search goes on at the next position that the scanner of the outline comes to.
      have onward {next fewer fuel' : Nat} {memory memory' : Memory}
          (follows : Follows words stencil memory memory') (reached : stencil.Reached next)
          (ahead : position < next)
          (enough' : place words stencil stop - place words stencil next ≤ fuel') :
          SameEnd words stencil position stop
            ((stencil.sketch stop).labelEnd? skip mayHoldLink fuel fewer next memory)
            ((scene words stencil stop).labelEnd? skip' mayHoldLink fuel' fewer
              (place words stencil next) memory') :=
        (inductionHypothesis _ follows reached (by omega) enough').mono ahead.le
      by_cases isDoor : stencil.IsDoor position
      · rcases labelEnd?_door matching closed proper inert mayHoldLink opened fuel follows reached
          isDoor before enough' with ⟨next, later, later', rest, ahead, goesOn, kept, further, step,
            step'⟩
        rw [step, step']
        exact onward kept goesOn ahead further
      · obtain ⟨fuel', rfl⟩ : ∃ less, fuel' = less + 1 := ⟨fuel' - 1, by omega⟩
        have next : place words stencil (position + 1) = place words stencil position + 1 :=
          place_succ_of_not_isSlot reached.notSlot
        rcases matching.reached position memory memory' before reached isDoor follows with
          ⟨goes, later, ahead, goesOn⟩
        have further := mono ahead
        rw [labelEnd?, labelEnd?, if_neg (Nat.not_le.mpr placed), if_neg (Nat.not_le.mpr before)]
        simp only [has_filled inert (by decide : isInert '[' = false),
          has_filled inert (by decide : isInert ']' = false), goes, ← next, mono.injective.eq_iff]
        split
        · next closes =>
            refine ⟨rfl, follows, ?_⟩
            rintro closing ⟨⟩
            exact ⟨Nat.le_refl _, before, letter_of_drawn
              (Source.has_iff.mp (Bool.and_eq_true_iff.mp closes).1) (by decide)⟩
        · split
          · split
            · exact onward later goesOn ahead (by omega)
            · split
              · exact onward later goesOn ahead (by omega)
              · exact ended later
          · exact onward later goesOn ahead (by omega)
    · rw [labelEnd?_of_le beyond, labelEnd?_of_le (mono.monotone beyond)]
      exact ended follows

theorem label?_scene (mayHoldLink : Bool) (held : stencil[position]? = some (.letter '['))
    (follows : Follows words stencil memory memory') :
    SameEnd words stencil (position + 1) stop
      ((stencil.sketch stop).label? skip mayHoldLink position memory)
      ((scene words stencil stop).label? skip' mayHoldLink (place words stencil position)
        memory') := by
  have next : place words stencil (position + 1) = place words stencil position + 1 :=
    place_succ_of_letter held
  unfold label?
  rw [← next]
  exact labelEnd?_scene matching closed proper inert mayHoldLink 1 follows
    (proper.reached_succ held (by decide))
    (show stop - (position + 1) ≤ stop - position by omega)
    (show place words stencil stop - place words stencil (position + 1) ≤
      place words stencil stop - place words stencil position by omega)

/-- The same link in the outline and in the filled text. -/
inductive SameLink (words : Nat → Text) (stencil : Stencil) (position : Nat) :
    Option Scene.Link → Option Scene.Link → Prop where
  | absent : SameLink words stencil position none none
  | link {labelEnd start stop : Nat} {href href' : Text} (label : position < labelEnd)
      (bracket : stencil[labelEnd]? = some (.letter ']')) (behind : labelEnd < start)
      (within : start < stop) (reached : stencil.Reached stop)
      (leads : Leads words stencil start stop href href') :
      SameLink words stencil position
        (some { labelEnd, stop, target? := some (href, start) })
        (some { labelEnd := place words stencil labelEnd, stop := place words stencil stop
                target? := some (href', place words stencil start) })

omit matching closed proper inert in
theorem referenceEnd?_of_no_labels {scene : Scene} (none : scene.labels = [])
    (skip : Skipper) (start stop position : Nat) (memory : Memory) :
    scene.referenceEnd? skip start stop position memory = (.none, memory) := by
  unfold referenceEnd?
  rw [none]
  rfl

/-- A link of the filled text is the link of the outline. -/
theorem link?_scene (held : stencil[position]? = some (.letter '['))
    (follows : Follows words stencil memory memory') :
    SameLink words stencil position ((stencil.sketch stop).link? skip position memory).1
        ((scene words stencil stop).link? skip' (place words stencil position) memory').1 ∧
      Follows words stencil ((stencil.sketch stop).link? skip position memory).2
        ((scene words stencil stop).link? skip' (place words stencil position) memory').2 := by
  have mono : StrictMono (place words stencil) := place_strictMono inert
  have same := label?_scene matching closed proper inert false held follows
  unfold link?
  revert same
  generalize (stencil.sketch stop).label? skip false position memory = found
  generalize (scene words stencil stop).label? skip' false (place words stencil position)
    memory' = found'
  rintro ⟨ends, later, bracket⟩
  rcases found with ⟨_ | labelEnd, memory⟩ <;> rcases found' with ⟨_ | labelEnd', memory'⟩ <;>
    cases ends
  · exact ⟨.absent, later⟩
  · rcases bracket labelEnd rfl with ⟨ahead, before, closing⟩
    have behind : place words stencil (labelEnd + 1) = place words stencil labelEnd + 1 :=
      place_succ_of_letter closing
    dsimp only
    rw [← behind]
    simp only [referenceEnd?_of_no_labels, has_filled inert (by decide : isInert '(' = false),
      mono.lt_iff_lt, Option.map_none]
    split
    · next opens =>
        have parenthesis : stencil[labelEnd + 1]? = some (.letter '(') :=
          letter_of_drawn (Source.has_iff.mp (Bool.and_eq_true_iff.mp opens).2) (by decide)
        have tail := linkTail_scene proper inert parenthesis stop
        have start := destinationStart_scene proper inert parenthesis stop
        have further : labelEnd + 1 + 1 ≤
            (stencil.sketch stop).destinationStart (labelEnd + 1) := by
          rw [destinationStart_sketch proper]
          exact le_passBlank _ _
        rw [start]
        revert tail further
        generalize (stencil.sketch stop).destinationStart (labelEnd + 1) = start
        generalize (stencil.sketch stop).linkTail (labelEnd + 1) = first
        generalize (scene words stencil stop).linkTail _ = second
        rintro (⟨leads, within, last, rfl, close⟩ | ⟨_, _⟩ | _) further
        · exact ⟨.link (by omega) closing (by omega) within
            (proper.reached_succ close (by decide)) leads, later⟩
        · exact ⟨.absent, later⟩
        · exact ⟨.absent, later⟩
    · exact ⟨.absent, later⟩

/-- An image of the filled text ends where it ends in the outline. -/
theorem imageEnd?_scene (held : stencil[position]? = some (.letter '!'))
    (follows : Follows words stencil memory memory') :
    ((scene words stencil stop).imageEnd? skip' (place words stencil position) memory').1 =
        ((stencil.sketch stop).imageEnd? skip position memory).1.map (place words stencil) ∧
      Follows words stencil ((stencil.sketch stop).imageEnd? skip position memory).2
        ((scene words stencil stop).imageEnd? skip' (place words stencil position) memory').2 ∧
      ∀ last, ((stencil.sketch stop).imageEnd? skip position memory).1 = some last →
        position < last ∧ stencil.Reached last := by
  have mono : StrictMono (place words stencil) := place_strictMono inert
  have next : place words stencil (position + 1) = place words stencil position + 1 :=
    place_succ_of_letter held
  unfold imageEnd?
  rw [← next]
  simp only [has_filled inert (by decide : isInert '[' = false), mono.le_iff_le]
  split
  · exact ⟨rfl, follows, fun _ found => nomatch found⟩
  · next opens =>
      have bracket : stencil[position + 1]? = some (.letter '[') := by
        rw [Bool.or_eq_true, not_or, Bool.not_eq_true, Bool.not_eq_true, Bool.not_eq_false'] at opens
        exact letter_of_drawn (Source.has_iff.mp opens.2) (by decide)
      have same := label?_scene matching closed proper inert true bracket follows
      revert same
      generalize (stencil.sketch stop).label? skip true (position + 1) memory = found
      generalize (scene words stencil stop).label? skip' true (place words stencil (position + 1))
        memory' = found'
      rintro ⟨ends, later, closing⟩
      rcases found with ⟨_ | labelEnd, memory⟩ <;> rcases found' with ⟨_ | labelEnd', memory'⟩ <;>
        cases ends
      · exact ⟨rfl, later, fun _ found => nomatch found⟩
      · rcases closing labelEnd rfl with ⟨ahead, before, close⟩
        have behind : place words stencil (labelEnd + 1) = place words stencil labelEnd + 1 :=
          place_succ_of_letter close
        dsimp only
        rw [← behind]
        simp only [referenceEnd?_of_no_labels, has_filled inert (by decide : isInert '(' = false),
          mono.lt_iff_lt]
        split
        · next opens =>
            have parenthesis : stencil[labelEnd + 1]? = some (.letter '(') :=
              letter_of_drawn (Source.has_iff.mp (Bool.and_eq_true_iff.mp opens).2) (by decide)
            refine ⟨imageTail?_scene proper inert parenthesis stop, later, fun last found => ?_⟩
            have bound := le_of_imageTail? found
            rcases closed_of_imageTail? found with ⟨close, rfl, stands⟩
            exact ⟨by omega, proper.reached_succ stands (by decide)⟩
        · exact ⟨rfl, later, fun _ found => nomatch found⟩

end Label

/-! ## Where constructs end -/

/-- A scan that a letter stops, and a parenthesis, too, comes to where the scanner comes to. -/
theorem Proper.reached_pass (proper : stencil.Proper) {test : Char → Bool}
    (closed : test '(' = false) (blunt : test 'x' = false) (reached : stencil.Reached position)
    (stop : Nat) : stencil.Reached (stencil.drawn.pass test stop position) := by
  have ahead : position ≤ stencil.drawn.pass test stop position := Source.le_pass stop position
  rcases Nat.eq_or_lt_of_le ahead with same | before
  · exact same ▸ reached
  · obtain ⟨last, same⟩ : ∃ last, stencil.drawn.pass test stop position = last + 1 :=
      ⟨_, (Nat.sub_add_cancel (by omega)).symm⟩
    rw [same] at before ⊢
    rcases Source.test_of_lt_pass (show position ≤ last by omega)
        (show last < stencil.drawn.pass test stop position by omega) with ⟨c, shown, passes⟩
    have notSlot : ¬ stencil.IsSlot last := by
      rintro ⟨number, held⟩
      cases (drawn_of_slot held).symm.trans shown
      cases blunt.symm.trans passes
    refine proper.reached_succ (letter_of_bare notSlot shown) ?_
    rintro rfl
    cases closed.symm.trans passes

theorem Proper.reached_behindBreak (proper : stencil.Proper)
    (reached : stencil.Reached (position + 1)) (stop : Nat) :
    position < (stencil.sketch stop).behindBreak position ∧
      stencil.Reached ((stencil.sketch stop).behindBreak position) :=
  ⟨le_behindBreak _ position, proper.reached_pass (by decide) (by decide) reached stop⟩

theorem Proper.reached_escape? (proper : stencil.Proper)
    (held : stencil[position]? = some (.letter '\\')) {escape : Option Char × Nat}
    (found : (stencil.sketch stop).escape? position = some escape) :
    position < escape.2 ∧ stencil.Reached escape.2 := by
  have bare : ¬ stencil.IsSlot (position + 1) := proper.not_isSlot_succ held (by decide)
  -- A parenthesis behind a backslash stands behind no bracket, so no slot stands behind it.
  have behind : stencil.Reached (position + 2) := by
    refine reached_of_not_isSlot ?_ bare
    rintro ⟨number, slot⟩
    rcases proper.before _ number slot with ⟨label, same, bracket, _⟩
    rw [show label = position by omega, held] at bracket
    cases bracket
  unfold escape? at found
  split at found
  · cases found
  · split at found
    · cases found
    · split at found
      · cases found
        have further := proper.reached_behindBreak behind stop
        exact ⟨by omega, further.2⟩
      · cases found
        exact ⟨by omega, behind⟩

theorem Proper.reached_backticks (proper : stencil.Proper)
    (held : stencil[position]? = some (.letter '\x60')) (stop : Nat) :
    position < stencil.drawn.pass (· == '\x60') stop (position + 1) ∧
      stencil.Reached (stencil.drawn.pass (· == '\x60') stop (position + 1)) :=
  ⟨Source.le_pass stop (position + 1), proper.reached_pass (by decide) (by decide)
    (proper.reached_succ held (by decide)) stop⟩

theorem Proper.reached_closeTicks (proper : stencil.Proper) {length fuel behind : Nat}
    (found : ((stencil.sketch stop).closeTicks length fuel position memory).1 = some behind) :
    position < behind ∧ stencil.Reached behind := by
  induction fuel generalizing position memory with
  | zero => cases found
  | succ fuel inductionHypothesis =>
      unfold closeTicks at found
      split at found
      · cases found
      · next start first =>
          rcases backtick_of_find? first with ⟨held, ahead, _⟩
          have run := proper.reached_backticks held stop
          dsimp only at found
          split at found
          · cases found
            exact ⟨by omega, run.2⟩
          · have further := inductionHypothesis found
            exact ⟨by omega, further.2⟩

theorem Proper.reached_ticksAt (proper : stencil.Proper)
    (held : stencil[position]? = some (.letter '\x60')) :
    position < ((stencil.sketch stop).ticksAt position memory).1.stop ∧
      stencil.Reached ((stencil.sketch stop).ticksAt position memory).1.stop := by
  have run := proper.reached_backticks held stop
  unfold ticksAt
  dsimp only
  split
  · exact run
  · split
    · next behind _ closed =>
        have further := proper.reached_closeTicks (congrArg Prod.fst closed)
        exact ⟨run.1.trans further.1, further.2⟩
    · exact run

theorem EndsBare.reached {next : Nat} (ends : stencil.EndsBare position next) :
    position < next ∧ stencil.Reached next := by
  rcases ends with ⟨last, rfl, ahead, before, behind⟩
  exact ⟨by omega, reached_of_not_isSlot behind before⟩

/-! ## One step -/

/-- The construct at a position of the outline, and at its place in the filled text, and what is
remembered then. -/
structure SameConstruct (words : Nat → Text) (stencil : Stencil) (position : Nat)
    (found found' : Option Nat × Memory) : Prop where
  last? : found'.1 = found.1.map (place words stencil)
  follows : Follows words stencil found.2 found'.2
  ahead : ∀ stop, found.1 = some stop → position < stop ∧ stencil.Reached stop

theorem constructEnd?_scene (matching : Matches words stencil stop skip skip')
    (closed : stencil.Closed stop) (proper : stencil.Proper) (inert : Inert words)
    (follows : Follows words stencil memory memory') (before : position < stop)
    (reached : stencil.Reached position) (noDoor : ¬ stencil.IsDoor position) :
    SameConstruct words stencil position
      ((stencil.sketch stop).constructEnd? skip position memory)
      ((scene words stencil stop).constructEnd? skip' (place words stencil position) memory') := by
  have within : position < stencil.length := Nat.lt_of_lt_of_le before closed.le_length
  obtain ⟨c, held⟩ := reached.exists_letter within
  have notAngle : c ≠ '<' := by
    rintro rfl
    exact proper.noAngle (List.mem_of_getElem? held)
  have absent : SameConstruct words stencil position (none, memory) (none, memory') :=
    ⟨rfl, follows, fun _ found => nomatch found⟩
  unfold constructEnd?
  simp only [filled_of_letter held, drawn_of_letter held]
  split
  · next same =>
      subst same
      rw [behindBreak_scene inert reached.notSlot]
      refine ⟨rfl, follows, ?_⟩
      rintro last ⟨⟩
      exact proper.reached_behindBreak (proper.reached_succ held (by decide)) stop
  split
  · next same =>
      subst same
      rw [escape?_scene proper inert held]
      refine ⟨by rw [Option.map_map, Option.map_map]; rfl, follows, fun last found => ?_⟩
      rcases Option.map_eq_some_iff.mp found with ⟨escape, escapes, rfl⟩
      exact proper.reached_escape? held escapes
  split
  · next same =>
      subst same
      have ticks := ticksAt_scene proper inert closed.le_length held follows.ticks
      refine ⟨congrArg (fun ticks => some ticks.stop) ticks.1, ?_, ?_⟩
      · exact follows.of_ticks (ends_ticksAt ..) (ends_ticksAt ..) ticks.2
      · rintro last ⟨⟩
        exact proper.reached_ticksAt held
  split
  · next same =>
      subst same
      have link := link?_scene matching closed proper inert held follows
      revert link
      generalize (stencil.sketch stop).link? skip position memory = found
      generalize (scene words stencil stop).link? skip' (place words stencil position) memory' =
        found'
      rcases found with ⟨link, memory⟩
      rcases found' with ⟨link', memory'⟩
      rintro ⟨_ | ⟨label, _, behind, inside, goesOn, _⟩, later⟩
      · exact ⟨rfl, later, fun _ found => nomatch found⟩
      · refine ⟨rfl, later, ?_⟩
        rintro last ⟨⟩
        exact ⟨(label.trans behind).trans inside, goesOn⟩
  split
  · next same =>
      subst same
      have image := imageEnd?_scene matching closed proper inert held follows
      exact ⟨image.1, image.2.1, image.2.2⟩
  split
  · next same =>
      subst same
      have entity := entity?_scene proper inert held stop
      rw [entity.1]
      refine ⟨by rw [Option.map_map, Option.map_map]; rfl, follows, fun last found => ?_⟩
      rcases Option.map_eq_some_iff.mp found with ⟨reference, refers, rfl⟩
      exact (entity.2 reference refers).reached
  split
  · exact absent
  · next plain =>
      have runs : runsOn c = true := by
        rw [runsOn, Bool.eq_false_iff.mpr plain]
        rfl
      refine ⟨congrArg some (proper.pass_runsOn inert reached.notSlot noDoor stop), follows, ?_⟩
      rintro last ⟨⟩
      refine ⟨?_, ?_⟩
      · refine Source.le_pass_of before fun place ahead short => ?_
        exact ⟨c, (by omega : place = position) ▸ drawn_of_letter held, runs⟩
      · rw [show stencil.drawn.pass (fun d => !endsPlain d) stop position =
          stencil.drawn.pass runsOn stop position from rfl, closed.pass_drawn before.le]
        exact reached_pass_runsOn stencil position

/-! ## Any number of levels -/

theorem skip_of_end? {scene : Scene} (levels : Nat) {last : Nat}
    (known : memory.end? position = some last) :
    scene.skip levels position memory = (last, memory) := by
  have found : memory.ends[position]? = some (some last) := Option.join_eq_some_iff.mp known
  cases levels with
  | zero => rw [skip, found]
  | succ levels => rw [skip, found]

theorem skip_zero_of_none {scene : Scene} (unknown : memory.end? position = none) :
    scene.skip 0 position memory =
      (scene.stop + 1, memory.remember position (scene.stop + 1)) := by
  rw [skip]
  split
  · next found => cases unknown.symm.trans (Option.join_eq_some_iff.mpr found)
  · rfl

theorem skip_succ_of_none {scene : Scene} (levels : Nat) (unknown : memory.end? position = none) :
    scene.skip (levels + 1) position memory =
      (((scene.constructEnd? (scene.skip levels) position memory).1.getD (position + 1)),
        (scene.constructEnd? (scene.skip levels) position memory).2.remember position
          ((scene.constructEnd? (scene.skip levels) position memory).1.getD (position + 1))) := by
  rw [skip]
  split
  · next found => cases unknown.symm.trans (Option.join_eq_some_iff.mpr found)
  · rfl

theorem constructEnd?_of_isQuiet {scene : Scene} {c : Char}
    (held : scene.source[position]? = some c) (quiet : isQuiet c = true) :
    scene.constructEnd? skip position memory =
      (if endsPlain c then none else some (scene.source.pass runsOn scene.stop position),
        memory) := by
  simp only [isQuiet, List.contains_eq_mem, List.mem_cons, List.not_mem_nil, or_false,
    Bool.not_eq_true', decide_eq_false_iff_not, not_or] at quiet
  rcases quiet with ⟨notBreak, notEscape, notTick, notOpening, _, notImage, notAngle, notReference⟩
  unfold constructEnd?
  rw [held]
  dsimp only
  rw [if_neg notBreak, if_neg notEscape, if_neg notTick, if_neg notOpening, if_neg notImage,
    if_neg notAngle, if_neg notReference]
  split <;> rfl

/-- Looking into labels, the scanner takes the steps of a word. -/
theorem IsDoor.hops (isDoor : stencil.IsDoor position) (proper : stencil.Proper)
    (inert : Inert words) (closed : stencil.Closed stop) (before : position < stop) (levels : Nat) :
    Hops words stencil position ((scene words stencil stop).skip (levels + 1)) := by
  intro spot memory there unknown
  rcases isDoor.exists_quiet proper inert there with ⟨c, stands, quiet⟩
  have short := isDoor.lt_stop closed before proper inert there
  have same : (if endsPlain c then none else some ((scene words stencil stop).source.pass runsOn
      (scene words stencil stop).stop spot)).getD (spot + 1) = hop words stencil spot := by
    unfold hop
    rw [stands, Option.any_some, closed.pass_filled inert short.le]
    split <;> rfl
  rw [skip_succ_of_none levels unknown, constructEnd?_of_isQuiet stands quiet, same]

theorem IsDoor.skip_sketch (isDoor : stencil.IsDoor position) (proper : stencil.Proper)
    (closed : stencil.Closed stop) (before : position < stop) (levels : Nat)
    (unknown : memory.end? position = none) :
    (stencil.sketch stop).skip (levels + 1) position memory =
      (stencil.exit position, memory.remember position (stencil.exit position)) := by
  have shown : stencil.drawn[position]? = some '(' :=
    drawn_of_letter (proper.parenthesis_of_isDoor isDoor)
  rw [skip_succ_of_none levels unknown, constructEnd?_of_isQuiet shown (by decide),
    if_neg (by decide), closed.pass_drawn before.le]
  rfl

/-- However many levels it looks into labels, the scanner passes over the constructs of a filled
text as over those of the outline. -/
theorem skip_matches (proper : stencil.Proper) (inert : Inert words)
    (closed : stencil.Closed stop) (levels : Nat) :
    Matches words stencil stop ((stencil.sketch stop).skip levels)
      ((scene words stencil stop).skip levels) := by
  have recalls : ∀ {scene : Scene} (levels : Nat), Recalls (scene.skip levels) :=
    fun levels _ _ _ known => skip_of_end? levels known
  -- What is remembered is passed alike.
  have known : ∀ {levels position last : Nat} {memory memory' : Memory},
      stencil.Reached position → ¬ stencil.IsDoor position →
        Follows words stencil memory memory' → memory.end? position = some last →
          (stencil.sketch stop).skip levels position memory = (last, memory) ∧
            (scene words stencil stop).skip levels (place words stencil position) memory' =
              (place words stencil last, memory') := by
    intro levels position last memory memory' reached noDoor follows known
    have known' := follows.ends position reached noDoor
    rw [known, Option.map_some] at known'
    exact ⟨skip_of_end? levels known, skip_of_end? levels known'⟩
  induction levels with
  | zero =>
      refine ⟨recalls 0, recalls 0, ?_, ?_⟩
      · intro position memory memory' before reached noDoor follows
        cases remembered : memory.end? position with
        | some last =>
            rcases known reached noDoor follows remembered with ⟨goes, goes'⟩
            rw [goes, goes']
            exact ⟨rfl, follows, follows.ahead position last remembered⟩
        | none =>
            have unknown' := follows.ends position reached noDoor
            rw [remembered, Option.map_none] at unknown'
            rw [skip_zero_of_none remembered, skip_zero_of_none unknown', ← closed.place_succ]
            have goesOn := closed.reached_succ proper
            have ahead : position < stop + 1 := Nat.lt_succ_of_lt before
            exact ⟨rfl, follows.remember proper inert (before.le.trans closed.le_length) reached
              ahead goesOn, ahead, goesOn⟩
      · intro door memory memory' isDoor before unknown unknown'
        refine Or.inl ⟨skip_zero_of_none unknown, ?_⟩
        rw [closed.place_succ]
        exact skip_zero_of_none unknown'
  | succ levels matching =>
      refine ⟨recalls _, recalls _, ?_, ?_⟩
      · intro position memory memory' before reached noDoor follows
        cases remembered : memory.end? position with
        | some last =>
            rcases known reached noDoor follows remembered with ⟨goes, goes'⟩
            rw [goes, goes']
            exact ⟨rfl, follows, follows.ahead position last remembered⟩
        | none =>
            have unknown' := follows.ends position reached noDoor
            rw [remembered, Option.map_none] at unknown'
            have construct := constructEnd?_scene matching closed proper inert follows before reached
              noDoor
            have next : place words stencil (position + 1) = place words stencil position + 1 :=
              place_succ_of_not_isSlot reached.notSlot
            rw [skip_succ_of_none levels remembered, skip_succ_of_none levels unknown',
              construct.last?, ← next]
            revert construct
            generalize (stencil.sketch stop).constructEnd? _ position memory = found
            rintro ⟨_, later, goes⟩
            rcases found with ⟨_ | last, memory⟩
            · have goesOn : stencil.Reached (position + 1) :=
                reached_of_not_isSlot noDoor reached.notSlot
              exact ⟨rfl, later.remember proper inert (before.le.trans closed.le_length) reached
                (Nat.lt_succ_self position) goesOn, Nat.lt_succ_self position, goesOn⟩
            · rcases goes last rfl with ⟨ahead, goesOn⟩
              exact ⟨rfl, later.remember proper inert (before.le.trans closed.le_length) reached
                ahead goesOn, ahead, goesOn⟩
      · intro door memory memory' isDoor before unknown unknown'
        exact Or.inr ⟨isDoor.skip_sketch proper closed before levels unknown,
          isDoor.hops proper inert closed before levels⟩

end Stencil
end Markup
end Crosslink

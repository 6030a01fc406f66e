import Crosslink.Markup.Inline.Skip
import Crosslink.Proofs.Markup.Destination
import Crosslink.Proofs.Markup.Tag

namespace Crosslink
namespace Markup

/-!
Passing over inline markup goes forward.  What is remembered of a construct is where it ends, and
no construct ends before it begins; a scanner that starts from such a memory ends in one.  From
this follows where the parts of a link lie: its label behind its bracket, its destination behind
its label, and its end behind both.
-/

namespace Memory

/-- No construct is remembered to end before it begins. -/
def Sound (memory : Memory) : Prop :=
  ∀ position stop : Nat, memory.ends[position]? = some (some stop) → position ≤ stop

theorem Sound.blank (size : Nat) : (Memory.blank size).Sound := by
  intro position stop found
  rcases Array.getElem?_eq_some_iff.mp found with ⟨_, held⟩
  simp [Memory.blank] at held

theorem Sound.remember {memory : Memory} (sound : memory.Sound) {position stop : Nat}
    (ahead : position ≤ stop) : (memory.remember position stop).Sound := by
  intro place last found
  rw [Memory.remember, Array.getElem?_setIfInBounds] at found
  split at found
  · next same =>
      split at found
      · cases found
        exact same ▸ ahead
      · cases found
  · exact sound place last found

/-- What is remembered of constructs is all that matters. -/
theorem Sound.congr {memory other : Memory} (sound : memory.Sound)
    (same : other.ends = memory.ends) : other.Sound := by
  intro place last found
  rw [same] at found
  exact sound place last found

end Memory

/-- A way of passing over constructs before `stop` that does not go back. -/
def Skipper.Forward (stop : Nat) (skip : Scene.Skipper) : Prop :=
  ∀ position memory, position < stop → memory.Sound →
    position ≤ (skip position memory).1 ∧ (skip position memory).2.Sound

namespace Scene

variable (scene : Scene)

/-! ## Constructs that hold nothing else -/

@[simp] theorem ends_closeTicks (length fuel position : Nat) (memory : Memory) :
    (scene.closeTicks length fuel position memory).2.ends = memory.ends := by
  induction fuel generalizing position memory with
  | zero => rfl
  | succ fuel inductionHypothesis =>
      rw [closeTicks]
      split
      · rfl
      · dsimp only
        split
        · rfl
        · exact inductionHypothesis _ _

theorem le_of_closeTicks {length fuel position : Nat} {memory : Memory} {stop : Nat}
    (closed : (scene.closeTicks length fuel position memory).1 = some stop) :
    position ≤ stop := by
  induction fuel generalizing position memory with
  | zero => cases closed
  | succ fuel inductionHypothesis =>
      rw [closeTicks] at closed
      split at closed
      · cases closed
      · next start found =>
          have ahead := Source.le_of_find? found
          dsimp only at closed
          generalize passed : scene.source.pass (· == '\x60') scene.stop (start + 1) = behind at closed
          have further : start + 1 ≤ behind := passed ▸ Source.le_pass _ _
          split at closed
          · cases closed
            omega
          · have := inductionHypothesis closed
            omega

@[simp] theorem ends_ticksAt (position : Nat) (memory : Memory) :
    (scene.ticksAt position memory).2.ends = memory.ends := by
  unfold ticksAt
  dsimp only
  split
  · rfl
  · split
    · next closed =>
        exact (congrArg (·.2.ends) closed).symm.trans (scene.ends_closeTicks _ _ _ memory)
    · next closed =>
        exact (congrArg (·.2.ends) closed).symm.trans (scene.ends_closeTicks _ _ _ memory)

theorem le_stop_ticksAt (position : Nat) (memory : Memory) :
    position ≤ (scene.ticksAt position memory).1.stop := by
  unfold ticksAt
  dsimp only
  generalize passed : scene.source.pass (· == '\x60') scene.stop (position + 1) = behind
  have further : position + 1 ≤ behind := passed ▸ Source.le_pass _ _
  split
  · exact Nat.le_of_succ_le further
  · split
    · next closed =>
        have := scene.le_of_closeTicks (congrArg Prod.fst closed)
        dsimp only
        omega
    · exact Nat.le_of_succ_le further

theorem le_behindBreak (position : Nat) : position + 1 ≤ scene.behindBreak position :=
  Source.le_pass _ _

theorem le_of_escape? {position next : Nat} {escaped : Option Char}
    (found : scene.escape? position = some (escaped, next)) : position ≤ next := by
  unfold escape? at found
  split at found
  · cases found
  · split at found
    · cases found
    · split at found
      · cases found
        have := scene.le_behindBreak (position + 1)
        omega
      · cases found
        omega

theorem le_of_entity? {position next : Nat} {value : Text}
    (found : scene.entity? position = some (value, next)) : position ≤ next := by
  unfold entity? at found
  dsimp only at found
  split at found
  · cases found
  · split at found
    · rcases Option.map_eq_some_iff.mp found with ⟨_, _, made⟩
      cases made
      exact Nat.le_add_right _ _
    · rcases Option.map_eq_some_iff.mp found with ⟨_, _, made⟩
      cases made
      exact Nat.le_add_right _ _

theorem le_of_rawTagEnd? {position stop : Nat} (found : scene.rawTagEnd? position = some stop) :
    position ≤ stop := by
  unfold rawTagEnd? at found
  dsimp only at found
  split at found
  · cases found
  · split at found
    · next c held =>
        split at found
        · rcases Option.map_eq_some_iff.mp found with ⟨rest, closed, made⟩
          have inside := (Array.getElem?_eq_some_iff.mp held).1
          have short := (suffix_of_rawTag? closed).length_le
          have size : scene.source.toList.length = scene.source.size := rfl
          rw [Source.between_eq, List.length_drop, List.length_take] at short
          omega
        · cases found
    · cases found

/-- What stands between angle brackets, and where the closing one stands. -/
theorem angled?_eq_some {position : Nat} {spelled : Text}
    (found : scene.angled? position = some spelled) :
    ∃ behind, position + 1 ≤ behind ∧ behind < scene.stop ∧
      spelled = scene.source.between (position + 1) behind ∧
      scene.source[behind]? = some '>' := by
  unfold angled? at found
  dsimp only at found
  split at found
  · next closes =>
      cases found
      rw [Bool.and_eq_true, decide_eq_true_iff, Source.has_iff] at closes
      exact ⟨_, Source.le_pass _ _, closes.1, rfl, closes.2⟩
  · cases found

/-! ## Labels -/

variable {scene} {skip : Skipper} {memory : Memory}

/-- The closing bracket of a label lies between the position that it is looked for from and the
end of the scene. -/
def IsAhead (scene : Scene) (position : Nat) (found : Option Nat × Memory) : Prop :=
  found.2.Sound ∧ ∀ closing, found.1 = some closing → position ≤ closing ∧ closing < scene.stop

theorem IsAhead.none {position : Nat} (sound : memory.Sound) :
    scene.IsAhead position (none, memory) :=
  ⟨sound, fun _ impossible => nomatch impossible⟩

theorem IsAhead.mono {first second : Nat} {found : Option Nat × Memory}
    (ahead : scene.IsAhead second found) (ordered : first ≤ second) : scene.IsAhead first found :=
  ⟨ahead.1, fun closing closed =>
    ⟨ordered.trans (ahead.2 closing closed).1, (ahead.2 closing closed).2⟩⟩

theorem labelEnd?_isAhead (forward : Skipper.Forward scene.stop skip) (mayHoldLink : Bool)
    (fuel opened position : Nat) (sound : memory.Sound) :
    scene.IsAhead position (scene.labelEnd? skip mayHoldLink fuel opened position memory) := by
  induction fuel generalizing opened position memory with
  | zero => exact IsAhead.none sound
  | succ fuel inductionHypothesis =>
      rw [labelEnd?]
      split
      · exact IsAhead.none sound
      · next inside =>
          have within := Nat.lt_of_not_le inside
          dsimp only
          split
          · exact ⟨sound, fun closing found => by cases found; exact ⟨Nat.le_refl _, within⟩⟩
          · have passed := forward position memory within sound
            have further (opened : Nat) :=
              (inductionHypothesis opened (skip position memory).1 passed.2).mono passed.1
            split
            · split
              · exact further _
              · split
                · exact further _
                · exact IsAhead.none passed.2
            · exact further _

theorem label?_isAhead (forward : Skipper.Forward scene.stop skip) (mayHoldLink : Bool)
    (position : Nat) (sound : memory.Sound) :
    scene.IsAhead (position + 1) (scene.label? skip mayHoldLink position memory) :=
  labelEnd?_isAhead forward mayHoldLink _ _ _ sound

/-! ## Behind a label -/

theorem le_passBlank (scene : Scene) (position : Nat) : position ≤ scene.passBlank position :=
  Source.le_pass _ _

theorem le_behindTitle (scene : Scene) (behind position : Nat) :
    position ≤ scene.behindTitle behind position := by
  unfold behindTitle
  split
  · exact Nat.le_refl _
  · split
    · next next closed =>
        have := titleAt_eq_closed closed
        have := scene.le_passBlank next
        omega
    · exact Nat.le_refl _

/-- A destination in parentheses is read from a stretch between them. -/
theorem linkTail_eq_target {position : Nat} {href : Text} {stop : Nat}
    (found : scene.linkTail position = .target href stop) :
    ∃ last, position < scene.destinationStart position ∧
      scene.destinationStart position ≤ last ∧ last < stop ∧ stop ≤ scene.stop ∧
      Writes (scene.source.between (scene.destinationStart position) last) href := by
  have blank := scene.le_passBlank (position + 1)
  unfold linkTail at found
  dsimp only at found
  split at found
  · cases found
  · next inside =>
      have within := Nat.lt_of_not_le inside
      have start : scene.destinationStart position =
          destinationText scene.source (scene.passBlank (position + 1)) := by
        unfold destinationStart destinationText
        simp only [within, decide_true, Bool.true_and]
      rw [start]
      split at found
      · next behind read =>
          have title := scene.le_behindTitle behind (scene.passBlank behind)
          have gap := scene.le_passBlank behind
          split at found
          · next closes =>
              cases found
              rw [Bool.and_eq_true, decide_eq_true_iff] at closes
              rcases destination?_eq_some within.le read with ⟨last, ahead, ended, _, writes⟩
              refine ⟨last, ?_, ahead, by omega, closes.1, writes⟩
              unfold destinationText
              split <;> omega
          · cases found
      · split at found
        · next closes =>
            cases found
            have plain : destinationText scene.source (scene.passBlank (position + 1)) =
                scene.passBlank (position + 1) := by
              unfold destinationText
              rw [Source.has_iff] at closes
              rw [if_neg (by rw [Source.has_iff, closes]; decide)]
            rw [plain]
            exact ⟨_, by omega, Nat.le_refl _, Nat.lt_succ_self _, within, .empty _⟩
        · cases found

theorem linkTail_eq_broken {position next : Nat} (found : scene.linkTail position = .broken next) :
    position ≤ next := by
  have blank := scene.le_passBlank (position + 1)
  unfold linkTail at found
  dsimp only at found
  split at found
  · cases found
  · next inside =>
      split at found
      · next behind read =>
          have ahead := (le_of_destination? (Nat.lt_of_not_le inside).le read).1
          have title := scene.le_behindTitle behind (scene.passBlank behind)
          have gap := scene.le_passBlank behind
          split at found
          · cases found
          · cases found
            omega
      · split at found
        · cases found
        · cases found
          omega

theorem le_of_imageTail? {position stop : Nat} (found : scene.imageTail? position = some stop) :
    position ≤ stop := by
  have blank := scene.le_passBlank (position + 1)
  unfold imageTail? at found
  dsimp only at found
  split at found
  · cases found
  · next inside =>
      have closes {behind : Nat} (ahead : scene.passBlank (position + 1) ≤ behind)
          (ended : (if scene.behindTitle behind (scene.passBlank behind) < scene.stop &&
              scene.source.has (scene.behindTitle behind (scene.passBlank behind)) ')' then
            some (scene.behindTitle behind (scene.passBlank behind) + 1) else none) = some stop) :
          position ≤ stop := by
        have title := scene.le_behindTitle behind (scene.passBlank behind)
        have gap := scene.le_passBlank behind
        split at ended
        · cases ended
          omega
        · cases ended
      cases read : destination? scene.source (scene.passBlank (position + 1)) scene.stop with
      | none =>
          simp only [read] at found
          exact closes (Nat.le_refl _) found
      | some pair =>
          simp only [read] at found
          exact closes (le_of_destination? (Nat.lt_of_not_le inside).le read).1 found

theorem referenceEnd?_forward (forward : Skipper.Forward scene.stop skip) (start : Nat)
    {stop position : Nat} (ahead : stop ≤ position) (sound : memory.Sound) :
    (scene.referenceEnd? skip start stop position memory).2.Sound ∧
      ∀ behind, (scene.referenceEnd? skip start stop position memory).1 = some behind →
        stop < behind := by
  have label := label?_isAhead forward true position sound
  have bounded {defined : Prop} [Decidable defined] {last behind : Nat} (further : stop < last)
      (found : (if defined then some last else none) = some behind) : stop < behind := by
    split at found
    · cases found
      exact further
    · cases found
  unfold referenceEnd?
  dsimp only
  split
  · exact ⟨sound, fun _ impossible => nomatch impossible⟩
  · split
    · split
      · next closing memory made =>
          rw [made] at label
          have closed := (label.2 closing rfl).1
          exact ⟨label.1, fun behind found => bounded (by omega) found⟩
      · next memory made =>
          rw [made] at label
          exact ⟨label.1, fun behind found => bounded (Nat.lt_succ_self stop) found⟩
    · exact ⟨sound, fun behind found => bounded (Nat.lt_succ_self stop) found⟩

/-- Where the parts of a link lie that begins at a position, and what its destination is read
from. -/
structure Link.Lies (scene : Scene) (position : Nat) (link : Link) : Prop where
  /-- The label lies behind its bracket. -/
  label : position < link.labelEnd
  /-- The label ends inside the scene. -/
  within : link.labelEnd < scene.stop
  /-- The link ends behind its label. -/
  ends : link.labelEnd < link.stop
  /-- The destination lies behind the label, inside the link and inside the scene. -/
  target : ∀ href start, link.target? = some (href, start) →
    ∃ last, link.labelEnd < start ∧ start ≤ last ∧ last < link.stop ∧ link.stop ≤ scene.stop ∧
      Writes (scene.source.between start last) href

theorem link?_lies (forward : Skipper.Forward scene.stop skip) (position : Nat)
    (sound : memory.Sound) :
    (scene.link? skip position memory).2.Sound ∧
      ∀ link, (scene.link? skip position memory).1 = some link → link.Lies scene position := by
  have label := label?_isAhead forward false position sound
  unfold link?
  split
  · next memory made =>
      rw [made] at label
      exact ⟨label.1, fun _ impossible => nomatch impossible⟩
  · next labelEnd memory made =>
      rw [made] at label
      have bounds := label.2 labelEnd rfl
      -- Where no destination follows the label, it is tried as a reference.
      have reference {next : Nat} (ahead : labelEnd ≤ next) :
          (scene.referenceEnd? skip (position + 1) labelEnd next memory).2.Sound ∧
            ∀ link : Link,
              (scene.referenceEnd? skip (position + 1) labelEnd next memory).1.map
                (fun stop => ({ labelEnd, stop, target? := none } : Link)) = some link →
              link.Lies scene position := by
        have behind := referenceEnd?_forward forward (position + 1) ahead label.1
        refine ⟨behind.1, fun link found => ?_⟩
        rcases Option.map_eq_some_iff.mp found with ⟨stop, ended, rfl⟩
        exact ⟨bounds.1, bounds.2, behind.2 stop ended, fun _ _ impossible => nomatch impossible⟩
      dsimp only
      split
      · split
        · next href stop tail =>
            rcases linkTail_eq_target tail with ⟨last, begins, ahead, ended, inside, writes⟩
            refine ⟨label.1, fun link found => ?_⟩
            cases found
            refine ⟨bounds.1, bounds.2, by dsimp only; omega, fun href' start same => ?_⟩
            cases same
            exact ⟨last, by dsimp only; omega, ahead, ended, inside, writes⟩
        · next next tail =>
            have further := linkTail_eq_broken tail
            exact reference (by omega)
        · exact ⟨label.1, fun _ impossible => nomatch impossible⟩
      · exact reference (Nat.le_succ labelEnd)

theorem imageEnd?_forward (forward : Skipper.Forward scene.stop skip) (position : Nat)
    (sound : memory.Sound) :
    (scene.imageEnd? skip position memory).2.Sound ∧
      ∀ stop, (scene.imageEnd? skip position memory).1 = some stop → position ≤ stop := by
  have label := label?_isAhead forward true (position + 1) sound
  unfold imageEnd?
  split
  · exact ⟨sound, fun _ impossible => nomatch impossible⟩
  · split
    · next memory made =>
        rw [made] at label
        exact ⟨label.1, fun _ impossible => nomatch impossible⟩
    · next labelEnd memory made =>
        rw [made] at label
        have behind := (label.2 labelEnd rfl).1
        dsimp only
        split
        · refine ⟨label.1, fun stop found => ?_⟩
          have := le_of_imageTail? found
          omega
        · have bounds := referenceEnd?_forward forward (position + 2) (Nat.le_succ labelEnd) label.1
          refine ⟨bounds.1, fun stop found => ?_⟩
          have := bounds.2 stop found
          omega

/-! ## Any construct -/

theorem constructEnd?_forward (forward : Skipper.Forward scene.stop skip) (position : Nat)
    (sound : memory.Sound) :
    (scene.constructEnd? skip position memory).2.Sound ∧
      ∀ stop, (scene.constructEnd? skip position memory).1 = some stop → position ≤ stop := by
  unfold constructEnd?
  split
  · exact ⟨sound, fun _ impossible => nomatch impossible⟩
  · dsimp only
    split
    · refine ⟨sound, fun stop found => ?_⟩
      cases found
      exact Nat.le_of_succ_le (scene.le_behindBreak position)
    split
    · refine ⟨sound, fun stop found => ?_⟩
      rcases Option.map_eq_some_iff.mp found with ⟨escape, read, rfl⟩
      exact scene.le_of_escape? read
    split
    · refine ⟨sound.congr (scene.ends_ticksAt position memory), fun stop found => ?_⟩
      cases found
      exact scene.le_stop_ticksAt position memory
    split
    · have bounds := link?_lies forward position sound
      refine ⟨bounds.1, fun stop found => ?_⟩
      rcases Option.map_eq_some_iff.mp found with ⟨link, read, rfl⟩
      have lies := bounds.2 link read
      exact (lies.label.trans lies.ends).le
    split
    · exact imageEnd?_forward forward position sound
    split
    · split
      · refine ⟨sound, fun stop found => ?_⟩
        cases found
        omega
      · exact ⟨sound, fun stop found => scene.le_of_rawTagEnd? found⟩
    split
    · refine ⟨sound, fun stop found => ?_⟩
      rcases Option.map_eq_some_iff.mp found with ⟨entity, read, rfl⟩
      exact scene.le_of_entity? read
    split
    · exact ⟨sound, fun _ impossible => nomatch impossible⟩
    · refine ⟨sound, fun stop found => ?_⟩
      cases found
      exact Source.le_pass _ _

/-- Passing over constructs goes forward, however deep it looks into labels. -/
theorem skip_forward (scene : Scene) (levels : Nat) :
    Skipper.Forward scene.stop (scene.skip levels) := by
  induction levels with
  | zero =>
      intro position memory inside sound
      rw [skip]
      split
      · next stop found => exact ⟨sound position stop found, sound⟩
      · have ahead : position ≤ scene.stop + 1 := Nat.le_succ_of_le inside.le
        exact ⟨ahead, sound.remember ahead⟩
  | succ levels inductionHypothesis =>
      intro position memory inside sound
      have bounds := constructEnd?_forward inductionHypothesis position sound
      rw [skip]
      split
      · next stop found => exact ⟨sound position stop found, sound⟩
      · have ahead : position ≤
            ((scene.constructEnd? (scene.skip levels) position memory).1.getD (position + 1)) := by
          cases ended : (scene.constructEnd? (scene.skip levels) position memory).1 with
          | none => exact Nat.le_succ position
          | some stop => exact bounds.2 stop ended
        exact ⟨ahead, bounds.1.remember ahead⟩

end Scene
end Markup
end Crosslink

import Crosslink.Markup.Inline.Emphasis
import Crosslink.Proofs.Markup.Inline.Nested

namespace Crosslink
namespace Markup

/-!
Paired emphasis marks are balanced.  Every step of pairing takes one mark that has not been looked
at before, and pairs it at most with a mark in front of it that neither opens nor closes anything;
so the marks that open and those that close match like brackets, whatever a search passes over.
-/

/-! ## Marks that match -/

/-- What marks turned out to be, with so many of them closing emphasis that was opened before. -/
inductive Matched : Nat → List (Option Event) → Prop where
  | nil : Matched 0 []
  | plain {depth : Nat} {rest : List (Option Event)} (behind : Matched depth rest) :
      Matched depth (none :: rest)
  | opening {depth : Nat} {rest : List (Option Event)} (behind : Matched (depth + 1) rest) :
      Matched depth (some .emphasisOpen :: rest)
  | closing {depth : Nat} {rest : List (Option Event)} (behind : Matched depth rest) :
      Matched (depth + 1) (some .emphasisClose :: rest)

namespace Matched

theorem replicate (length : Nat) : Matched 0 (List.replicate length none) := by
  induction length with
  | zero => exact .nil
  | succ length inductionHypothesis => exact .plain inductionHypothesis

theorem close {depth number : Nat} {marks : List (Option Event)} (matched : Matched depth marks)
    (free : marks[number]? = some none) :
    Matched (depth + 1) (marks.set number (some .emphasisClose)) := by
  induction matched generalizing number with
  | nil => cases free
  | plain behind later =>
      cases number with
      | zero => exact .closing behind
      | succ number => exact .plain (later free)
  | opening _ later =>
      cases number with
      | zero => cases free
      | succ number => exact .opening (later free)
  | closing _ later =>
      cases number with
      | zero => cases free
      | succ number => exact .closing (later free)

theorem pair {depth first second : Nat} {marks : List (Option Event)}
    (matched : Matched depth marks) (ordered : first < second)
    (free : marks[first]? = some none) (alsoFree : marks[second]? = some none) :
    Matched depth ((marks.set first (some .emphasisOpen)).set second (some .emphasisClose)) := by
  induction matched generalizing first second with
  | nil => cases free
  | plain behind later =>
      rcases Nat.exists_eq_succ_of_ne_zero (Nat.ne_zero_of_lt ordered) with ⟨second, rfl⟩
      cases first with
      | zero => exact .opening (behind.close alsoFree)
      | succ first => exact .plain (later (Nat.lt_of_succ_lt_succ ordered) free alsoFree)
  | opening _ later =>
      rcases Nat.exists_eq_succ_of_ne_zero (Nat.ne_zero_of_lt ordered) with ⟨second, rfl⟩
      cases first with
      | zero => cases free
      | succ first => exact .opening (later (Nat.lt_of_succ_lt_succ ordered) free alsoFree)
  | closing _ later =>
      rcases Nat.exists_eq_succ_of_ne_zero (Nat.ne_zero_of_lt ordered) with ⟨second, rfl⟩
      cases first with
      | zero => cases free
      | succ first => exact .closing (later (Nat.lt_of_succ_lt_succ ordered) free alsoFree)

end Matched

/-! ## What a mark turned out to be -/

private theorem getElem?_flags (closers : List Nat) (flags : Array Bool) (number : Nat) :
    (closers.foldl (fun flags closer => flags.setIfInBounds closer true) flags)[number]? =
      flags[number]?.map (· || decide (number ∈ closers)) := by
  induction closers generalizing flags with
  | nil => simp
  | cons closer rest inductionHypothesis =>
      rw [List.foldl_cons, inductionHypothesis, Array.getElem?_setIfInBounds]
      by_cases same : closer = number
      · rw [if_pos same, same]
        by_cases inside : number < flags.size
        · rw [if_pos inside, Array.getElem?_eq_getElem inside]
          simp
        · rw [if_neg inside, Array.getElem?_eq_none (Nat.le_of_not_lt inside)]
          rfl
      · have other : number ≠ closer := fun equal => same equal.symm
        simp only [if_neg same, List.mem_cons, other, false_or]

theorem getElem?_outcomes (marks : List Mark) (number : Nat) :
    (outcomes marks)[number]? = marks[number]?.map fun mark =>
      if mark.closer?.isSome then some .emphasisOpen
      else if number ∈ marks.filterMap (·.closer?) then some .emphasisClose
      else none := by
  have flagged := Array.getElem?_toList.trans (getElem?_flags (marks.filterMap (·.closer?))
    (Array.replicate marks.length false) number)
  unfold outcomes
  dsimp only
  rw [List.getElem?_map, List.zip, List.getElem?_zipWith, flagged]
  cases held : marks[number]? with
  | none => rfl
  | some mark =>
      have inside := (List.getElem?_eq_some_iff.mp held).1
      rw [Array.getElem?_replicate, if_pos inside]
      simp

theorem length_outcomes (marks : List Mark) : (outcomes marks).length = marks.length := by
  refine Nat.le_antisymm ?_ (Nat.le_of_not_lt fun short => ?_)
  · rw [← List.getElem?_eq_none_iff, getElem?_outcomes, List.getElem?_eq_none (Nat.le_refl _)]
    rfl
  · have behind := getElem?_outcomes marks (outcomes marks).length
    rw [List.getElem?_eq_none (Nat.le_refl _), List.getElem?_eq_getElem short] at behind
    cases behind

namespace Pairing

variable {pairing : Pairing} {opener closer number : Nat}

theorem mark_of_getElem? {mark : Mark} (held : pairing.marks[number]? = some mark) :
    pairing.mark number = mark := by
  rw [Pairing.mark, held, Option.getD_some]

theorem getElem?_of_closer? (closes : (pairing.mark opener).closer? = some closer) :
    pairing.marks[opener]? = some (pairing.mark opener) := by
  cases held : pairing.marks[opener]? with
  | none =>
      rw [Pairing.mark, held] at closes
      cases closes
  | some mark => rw [mark_of_getElem? held]

theorem lt_size_of_mayOpen (opens : (pairing.mark opener).mayOpen = true) :
    opener < pairing.marks.size := by
  refine Nat.lt_of_not_le fun outside => ?_
  rw [Pairing.mark, Array.getElem?_eq_none outside] at opens
  cases opens

theorem mem_closers_iff : closer ∈ pairing.marks.toList.filterMap (·.closer?) ↔
    ∃ opener, (pairing.mark opener).closer? = some closer := by
  rw [List.mem_filterMap]
  constructor
  · rintro ⟨mark, member, closes⟩
    rcases List.mem_iff_getElem?.mp member with ⟨opener, held⟩
    rw [Array.getElem?_toList] at held
    exact ⟨opener, by rw [mark_of_getElem? held, closes]⟩
  · rintro ⟨opener, closes⟩
    have held := Array.getElem?_toList.trans (getElem?_of_closer? closes)
    exact ⟨_, List.mem_of_getElem? held, closes⟩

/-! ## Pairing two marks -/

theorem getElem?_pair : (pairing.pair opener closer).marks[number]? =
    pairing.marks[number]?.map fun mark =>
      let closed := if closer = number then { mark with mayOpen := false } else mark
      if opener = number then { closed with mayClose := false, closer? := some closer }
      else closed := by
  have shape : (pairing.pair opener closer).marks =
      (pairing.marks.modify closer fun mark => { mark with mayOpen := false }).modify opener
        fun mark => { mark with mayClose := false, closer? := some closer } := rfl
  rw [shape, Array.getElem?_modify, Array.getElem?_modify]
  split <;> split <;> cases pairing.marks[number]? <;> rfl

theorem closer?_pair (inside : opener < pairing.marks.size) :
    ((pairing.pair opener closer).mark number).closer? =
      if opener = number then some closer else (pairing.mark number).closer? := by
  rw [Pairing.mark, Pairing.mark, getElem?_pair]
  cases held : pairing.marks[number]? with
  | none =>
      have outside := Array.getElem?_eq_none_iff.mp held
      rw [if_neg (by omega)]
      rfl
  | some mark =>
      dsimp only [Option.map_some, Option.getD_some]
      split <;> split <;> rfl

theorem mayOpen_pair : ((pairing.pair opener closer).mark number).mayOpen =
    if closer = number then false else (pairing.mark number).mayOpen := by
  rw [Pairing.mark, Pairing.mark, getElem?_pair]
  cases pairing.marks[number]? with
  | none =>
      split <;> rfl
  | some mark =>
      dsimp only [Option.map_some, Option.getD_some]
      split <;> split <;> rfl

/-- A mark that neither opens nor closes emphasis. -/
structure Free (pairing : Pairing) (number : Nat) : Prop where
  inside : number < pairing.marks.size
  opensNone : (pairing.mark number).closer? = none
  closesNone : ∀ opener, (pairing.mark opener).closer? ≠ some number

theorem Free.outcome (free : Free pairing number) :
    (outcomes pairing.marks.toList)[number]? = some none := by
  have held := Array.getElem?_eq_getElem free.inside
  have own := mark_of_getElem? held
  have unclosed : number ∉ pairing.marks.toList.filterMap (·.closer?) := fun member => by
    rcases mem_closers_iff.mp member with ⟨opener, closes⟩
    exact free.closesNone opener closes
  rw [getElem?_outcomes, Array.getElem?_toList, held, Option.map_some, ← own]
  simp [free.opensNone, unclosed]

theorem mem_closers_pair (opens : Free pairing opener) :
    number ∈ (pairing.pair opener closer).marks.toList.filterMap (·.closer?) ↔
      number = closer ∨ number ∈ pairing.marks.toList.filterMap (·.closer?) := by
  rw [mem_closers_iff, mem_closers_iff]
  simp only [closer?_pair opens.inside]
  constructor
  · rintro ⟨other, closes⟩
    split at closes
    · exact Or.inl (Option.some.inj closes).symm
    · exact Or.inr ⟨other, closes⟩
  · rintro (rfl | ⟨other, closes⟩)
    · exact ⟨opener, if_pos rfl⟩
    · refine ⟨other, (if_neg fun same => ?_).trans closes⟩
      rw [← same, opens.opensNone] at closes
      cases closes

/-- Pairing two free marks changes what these two turned out to be. -/
theorem outcomes_pair (opens : Free pairing opener) (closes : Free pairing closer)
    (apart : opener ≠ closer) :
    outcomes (pairing.pair opener closer).marks.toList =
      ((outcomes pairing.marks.toList).set opener (some .emphasisOpen)).set closer
        (some .emphasisClose) := by
  refine List.ext_getElem? fun number => ?_
  rw [getElem?_outcomes, Array.getElem?_toList, getElem?_pair, List.getElem?_set',
    List.getElem?_set', getElem?_outcomes, Array.getElem?_toList]
  simp only [mem_closers_pair opens]
  cases held : pairing.marks[number]? with
  | none => simp
  | some mark =>
      have own := mark_of_getElem? held
      by_cases isCloser : closer = number
      · have unpaired : mark.closer? = none := by rw [← own, ← isCloser, closes.opensNone]
        have other : opener ≠ number := isCloser ▸ apart
        simp [isCloser, other, unpaired]
      · by_cases isOpener : opener = number
        · simp [isCloser, isOpener]
        · have elsewhere : number ≠ closer := fun same => isCloser same.symm
          simp [isCloser, isOpener, elsewhere]

/-! ## Steps of pairing -/

/-- A search finds a mark among the first ones that may open emphasis and opens none so far. -/
theorem of_opener?_eq_some {mark : Mark} {floor fuel count : Nat}
    (found : pairing.opener? mark floor fuel count = some opener) :
    opener < count ∧ (pairing.mark opener).mayOpen = true ∧
      (pairing.mark opener).closer? = none := by
  induction fuel generalizing count with
  | zero => cases found
  | succ fuel inductionHypothesis =>
      rw [opener?] at found
      split at found
      · cases found
      · next above =>
          dsimp only at found
          split at found
          · next fits =>
              cases found
              simp only [Bool.and_eq_true, Option.isNone_iff_eq_none] at fits
              exact ⟨by omega, fits.1.1.2, fits.1.2⟩
          · have earlier := inductionHypothesis found
            exact ⟨by omega, earlier.2⟩

/-- What one step does: it pairs a mark with one in front of its run that is still to open
something, or it leaves all marks as they are.  A run begins where it began before, or here. -/
theorem step_cases (pairing : Pairing) (number : Nat) :
    (∃ (run : Pairing) (opener : Nat), pairing.step number = run.pair opener number ∧
      run.marks = pairing.marks ∧ (run.header = pairing.header ∨ run.header = number) ∧
      opener < run.header ∧ (run.mark opener).mayOpen = true ∧
      (run.mark opener).closer? = none) ∨
    ((pairing.step number).marks = pairing.marks ∧
      ((pairing.step number).header = pairing.header ∨ (pairing.step number).header = number)) := by
  have begins (continues : Prop) [Decidable continues] :
      (if continues then pairing.header else number) = pairing.header ∨
        (if continues then pairing.header else number) = number := by
    split
    · exact Or.inl rfl
    · exact Or.inr rfl
  unfold Pairing.step
  dsimp only
  split
  · exact Or.inr ⟨rfl, begins _⟩
  · split
    · next opener found =>
        rcases of_opener?_eq_some found with ⟨before, opens, unpaired⟩
        exact Or.inl ⟨_, opener, rfl, rfl, begins _,
          Nat.lt_of_lt_of_le before (Nat.sub_le _ _), opens, unpaired⟩
    · rw [apply_ite Pairing.marks, apply_ite Pairing.header, ite_self, ite_self]
      exact Or.inr ⟨rfl, begins _⟩

/-- What holds of marks of which the first ones have been taken: they are paired among themselves,
and what closes emphasis opens none. -/
structure Sound (number : Nat) (pairing : Pairing) : Prop where
  header_le : pairing.header ≤ number
  ordered : ∀ opener closer, (pairing.mark opener).closer? = some closer →
    opener < closer ∧ closer < number
  spent : ∀ opener closer, (pairing.mark opener).closer? = some closer →
    (pairing.mark closer).mayOpen = false
  matched : Matched 0 (outcomes pairing.marks.toList)

/-- Only the marks, and the place where the current run begins, matter. -/
theorem Sound.congr {other : Pairing} (sound : Sound number pairing)
    (same : other.marks = pairing.marks) (header : other.header ≤ number) : Sound number other := by
  have alike (place : Nat) : other.mark place = pairing.mark place := by
    rw [Pairing.mark, same, Pairing.mark]
  refine ⟨header, fun opener closer closes => ?_, fun opener closer closes => ?_,
    same ▸ sound.matched⟩
  · exact sound.ordered opener closer (alike opener ▸ closes)
  · exact alike closer ▸ sound.spent opener closer (alike opener ▸ closes)

theorem Sound.succ (sound : Sound number pairing) : Sound (number + 1) pairing where
  header_le := Nat.le_succ_of_le sound.header_le
  ordered opener closer closes :=
    ⟨(sound.ordered opener closer closes).1,
      Nat.lt_succ_of_lt (sound.ordered opener closer closes).2⟩
  spent := sound.spent
  matched := sound.matched

theorem Sound.free (sound : Sound number pairing) (inside : number < pairing.marks.size) :
    Free pairing number where
  inside := inside
  opensNone := by
    cases closes : (pairing.mark number).closer? with
    | none => rfl
    | some closer =>
        have ordered := sound.ordered number closer closes
        omega
  closesNone opener closes := absurd (sound.ordered opener number closes).2 (Nat.lt_irrefl number)

theorem Sound.free_of_mayOpen (sound : Sound number pairing)
    (opens : (pairing.mark opener).mayOpen = true)
    (unpaired : (pairing.mark opener).closer? = none) : Free pairing opener where
  inside := lt_size_of_mayOpen opens
  opensNone := unpaired
  closesNone other closes := by
    rw [sound.spent other opener closes] at opens
    cases opens

theorem Sound.pair (sound : Sound number pairing) (inside : number < pairing.marks.size)
    (before : opener < number) (opens : Free pairing opener) :
    Sound (number + 1) (pairing.pair opener number) := by
  have closes := sound.free inside
  have matched := sound.matched.pair before opens.outcome closes.outcome
  rw [← outcomes_pair opens closes (Nat.ne_of_lt before)] at matched
  refine ⟨sound.succ.header_le, fun first second pairs => ?_, fun first second pairs => ?_, matched⟩
  · rw [closer?_pair opens.inside] at pairs
    split at pairs
    · next same =>
        cases pairs
        exact ⟨same ▸ before, Nat.lt_succ_self number⟩
    · exact sound.succ.ordered first second pairs
  · rw [closer?_pair opens.inside] at pairs
    rw [mayOpen_pair]
    split
    · rfl
    · next other =>
        split at pairs
        · exact absurd (Option.some.inj pairs) other
        · exact sound.spent first second pairs

theorem Sound.step (sound : Sound number pairing) (inside : number < pairing.marks.size) :
    Sound (number + 1) (pairing.step number) := by
  have few {header : Nat} (begins : header = pairing.header ∨ header = number) :
      header ≤ number := by
    have := sound.header_le
    omega
  rcases step_cases pairing number with
    ⟨run, opener, paired, same, begins, before, opens, unpaired⟩ | ⟨same, begins⟩
  · have soundRun := sound.congr same (few begins)
    rw [paired]
    exact soundRun.pair (same ▸ inside) (Nat.lt_of_lt_of_le before (few begins))
      (soundRun.free_of_mayOpen opens unpaired)
  · exact (sound.congr same (few begins)).succ

@[simp] theorem size_step (pairing : Pairing) (number : Nat) :
    (pairing.step number).marks.size = pairing.marks.size := by
  rcases step_cases pairing number with ⟨run, opener, paired, same, _⟩ | ⟨same, _⟩
  · rw [paired, ← same]
    exact (Array.size_modify ..).trans (Array.size_modify ..)
  · rw [same]

/-! ## All marks -/

/-- Pairing before any mark has been taken. -/
def start (marks : List Mark) : Pairing where
  marks := marks.toArray
  jumps := Array.replicate marks.length 0
  floors := []
  header := 0
  last? := none

theorem sound_start {marks : List Mark} (fresh : ∀ mark ∈ marks, mark.closer? = none) :
    Sound 0 (start marks) := by
  have none (opener closer : Nat) : ((start marks).mark opener).closer? ≠ some closer := by
    intro closes
    have held := Array.getElem?_toList.trans (getElem?_of_closer? closes)
    rw [fresh _ (List.mem_of_getElem? held)] at closes
    cases closes
  have outcome : outcomes (start marks).marks.toList =
      List.replicate (start marks).marks.toList.length Option.none := by
    refine List.ext_getElem? fun number => ?_
    rw [List.getElem?_replicate]
    split
    · next inside => exact Free.outcome ⟨inside, by
        cases closes : ((start marks).mark number).closer? with
        | none => rfl
        | some closer => exact absurd closes (none number closer), fun opener => none opener number⟩
    · next outside =>
        rw [getElem?_outcomes, List.getElem?_eq_none (Nat.le_of_not_lt outside)]
        rfl
  exact ⟨Nat.le_refl 0, fun opener closer closes => absurd closes (none opener closer),
    fun opener closer closes => absurd closes (none opener closer), outcome ▸ .replicate _⟩

/-- Taking marks in order, each of them once, leaves as many, and they match. -/
theorem sound_foldl {marks : List Mark} (fresh : ∀ mark ∈ marks, mark.closer? = none)
    {count : Nat} (few : count ≤ marks.length) :
    ((List.range count).foldl step (start marks)).marks.size = marks.length ∧
      Sound count ((List.range count).foldl step (start marks)) := by
  induction count with
  | zero => exact ⟨rfl, sound_start fresh⟩
  | succ count inductionHypothesis =>
      rcases inductionHypothesis (Nat.le_of_succ_le few) with ⟨size, sound⟩
      rw [List.range_succ, List.foldl_append, List.foldl_cons, List.foldl_nil]
      exact ⟨(size_step _ _).trans size, sound.step (by omega)⟩

end Pairing

/-! ## Settled pieces -/

def Piece.IsBalanced : Piece → Prop
  | .settled events => Balanced events
  | .mark _ _ _ _ => True

/-- Events that close so much emphasis that was opened before them, and are balanced otherwise. -/
inductive Unwinds : Nat → List Event → Prop where
  | level {events : List Event} (balanced : Balanced events) : Unwinds 0 events
  | close {depth : Nat} {inside rest : List Event} (within : Balanced inside)
      (behind : Unwinds depth rest) : Unwinds (depth + 1) (inside ++ .emphasisClose :: rest)

theorem Unwinds.append {depth : Nat} {first rest : List Event} (unwinds : Unwinds depth rest)
    (balanced : Balanced first) : Unwinds depth (first ++ rest) := by
  cases unwinds with
  | level behind => exact .level (balanced.append behind)
  | close within behind =>
      rw [← List.append_assoc]
      exact .close (balanced.append within) behind

theorem Unwinds.opening {depth : Nat} {rest : List Event} (unwinds : Unwinds (depth + 1) rest) :
    Unwinds depth (.emphasisOpen :: rest) := by
  cases unwinds with
  | close within behind =>
      have closes : Event.emphasisOpen.closing? = some .emphasisClose := rfl
      have opened := behind.append (.enclose closes within)
      rw [List.cons_append, List.append_assoc] at opened
      exact opened

/-- Where marks match, the events that they turn into are balanced together with what is settled
between them. -/
theorem unwinds_eventsOf {depth : Nat} {pieces : List Piece} {paired : List (Option Event)}
    (matched : Matched depth paired) (place : Nat)
    (complete : paired.length = (marksOf place pieces).length)
    (balanced : ∀ piece ∈ pieces, piece.IsBalanced) : Unwinds depth (eventsOf pieces paired) := by
  induction pieces generalizing depth paired place with
  | nil =>
      cases matched with
      | nil => exact .level .nil
      | plain | opening | closing => cases complete
  | cons piece rest inductionHypothesis =>
      have later : ∀ piece ∈ rest, piece.IsBalanced :=
        fun other member => balanced other (List.mem_cons_of_mem piece member)
      cases piece with
      | settled events =>
          exact (inductionHypothesis matched (place + 1) complete later).append
            (balanced _ List.mem_cons_self)
      | mark character length mayOpen mayClose =>
          cases matched with
          | nil => cases complete
          | plain behind =>
              have own : Balanced [.text [character]] := .single rfl rfl
              have unwinds := inductionHypothesis behind (place + 1) (Nat.succ.inj complete) later
              exact unwinds.append own
          | opening behind =>
              exact (inductionHypothesis behind (place + 1) (Nat.succ.inj complete) later).opening
          | closing behind =>
              exact .close .nil
                (inductionHypothesis behind (place + 1) (Nat.succ.inj complete) later)

theorem fresh_marksOf (place : Nat) (pieces : List Piece) :
    ∀ mark ∈ marksOf place pieces, mark.closer? = none := by
  induction pieces generalizing place with
  | nil => exact fun _ member => absurd member List.not_mem_nil
  | cons piece rest inductionHypothesis =>
      cases piece with
      | settled events => exact inductionHypothesis (place + 1)
      | mark character length mayOpen mayClose =>
          intro mark member
          rcases List.mem_cons.mp member with rfl | later
          · rfl
          · exact inductionHypothesis (place + 1) mark later

theorem balanced_settle {pieces : List Piece} (balanced : ∀ piece ∈ pieces, piece.IsBalanced) :
    Balanced (settle pieces) := by
  have taken := Pairing.sound_foldl (fresh_marksOf 0 pieces) (Nat.le_refl _)
  have complete := (length_outcomes _).trans taken.1
  cases unwinds_eventsOf taken.2.matched 0 complete balanced with
  | level events => exact events

end Markup
end Crosslink

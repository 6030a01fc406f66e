import Crosslink.Proofs.Markup.Destination
import Crosslink.Proofs.Markup.Inline.Skip
import Crosslink.Proofs.Markup.Stencil.Basic

namespace Crosslink
namespace Markup

/-- The position behind a title. -/
def Title.behind? : Title → Option Nat
  | .closed _ position => some position
  | _ => none

namespace Stencil

/-!
Destinations and titles in a filled text.  No word ends a destination or a title, holds an escape or
nests a parenthesis, so these parts of a link end where they do in the outline.  A destination that
begins with a slot is the word in it.
-/

/-! ## Inert characters -/

theorem ne_of_isInert {c mark : Char} (plain : isInert c = true) (marked : isInert mark = false) :
    c ≠ mark := by
  rintro rfl
  cases plain.symm.trans marked

theorem toNat_of_isInert {c : Char} (plain : isInert c = true) :
    0x20 < c.toNat ∧ c.toNat ≠ 0x7F := by
  simp only [isInert, Bool.and_eq_true, decide_eq_true_eq, bne_iff_ne] at plain
  exact plain.1.1

theorem isBlank_of_isInert {c : Char} (plain : isInert c = true) : isBlank c = false := by
  rw [isInert, Bool.and_eq_true, Bool.and_eq_true, Bool.not_eq_true'] at plain
  exact plain.1.2

theorem unescape_of_inert {word : Text} (inert : ∀ c ∈ word, isInert c = true) :
    unescape word = word :=
  unescape_of_plain (fun held => ne_of_isInert (inert _ held) (by decide) rfl)
    fun held => ne_of_isInert (inert _ held) (by decide) rfl

/-- Inert characters stand from a position on before another one. -/
def InertBetween (source : Source) (start stop : Nat) : Prop :=
  ∀ place, start ≤ place → place < stop → ∃ c, source[place]? = some c ∧ isInert c = true

variable {words : Nat → Text} {stencil : Stencil} {position stop : Nat}

/-- A slot is filled with inert characters. -/
theorem IsSlot.inertBetween (inert : Inert words) (slot : stencil.IsSlot position) :
    InertBetween (filled words stencil) (place words stencil position)
      (place words stencil (position + 1)) := by
  rcases slot with ⟨number, held⟩
  intro spot ahead before
  rcases exists_of_cell inert ahead before (lt_length_of_held held) with
    ⟨c, letter, _⟩ | ⟨_, c, _, stands, plain⟩
  · cases held.symm.trans letter
  · exact ⟨c, (List.getElem?_toArray ..).trans stands, plain⟩

/-- A mark of the outline that no word holds is a letter of the stencil. -/
theorem letter_of_drawn {mark : Char} (shown : stencil.drawn[position]? = some mark)
    (marked : isInert mark = false) : stencil[position]? = some (.letter mark) := by
  cases held : stencil[position]? with
  | none => cases (drawn_of_none held).symm.trans shown
  | some cell =>
      cases cell with
      | letter c =>
          cases (drawn_of_letter held).symm.trans shown
          rfl
      | slot number =>
          cases (drawn_of_slot held).symm.trans shown
          cases marked

/-- Behind a letter that is no parenthesis stands no slot. -/
theorem Proper.not_isSlot_succ (proper : stencil.Proper) {c : Char}
    (held : stencil[position]? = some (.letter c)) (other : c ≠ '(') :
    ¬ stencil.IsSlot (position + 1) := by
  rintro ⟨number, slot⟩
  rcases proper.before _ number slot with ⟨label, same, _, parenthesis⟩
  rw [← Nat.succ.inj same, held] at parenthesis
  cases parenthesis
  exact other rfl

theorem place_succ_of_not_isSlot (bare : ¬ stencil.IsSlot position) :
    place words stencil (position + 1) = place words stencil position + 1 := by
  have bareBetween : stencil.BareBetween position (position + 1) := fun _ ahead before =>
    (Nat.le_antisymm (Nat.le_of_lt_succ before) ahead) ▸ bare
  exact bareBetween.place_add

/-! ## Destinations -/

section Bare

variable {source : Source} {last : Nat}

theorem bareEnd?_of_inert {c : Char} (held : source[position]? = some c) (plain : isInert c = true)
    (before : position < stop) (fuel opened : Nat) :
    bareEnd? source stop (fuel + 1) opened position =
      bareEnd? source stop fuel opened (position + 1) := by
  have shown : 0x20 < c.toNat ∧ c.toNat ≠ 0x7F := toNat_of_isInert plain
  have ends : (c = ' ' || c.toNat < 0x20 || c.toNat = 0x7F) = false := by
    simp [ne_of_isInert plain (by decide : isInert ' ' = false), shown.2, shown.1.le]
  rw [bareEnd?, if_neg (Nat.not_le.mpr before), held]
  dsimp only
  rw [ends, if_neg Bool.false_ne_true, if_neg, if_neg (ne_of_isInert plain (by decide)),
    if_neg (ne_of_isInert plain (by decide))]
  simp [ne_of_isInert plain (by decide : isInert '\\' = false)]

/-- Inert characters are passed by the scan for the end of a destination. -/
theorem bareEnd?_passes (ordered : position ≤ last) (within : last ≤ stop)
    (inert : InertBetween source position last) {fuel : Nat} (enough : stop - position ≤ fuel)
    (opened : Nat) :
    ∃ rest, stop - last ≤ rest ∧
      bareEnd? source stop fuel opened position = bareEnd? source stop rest opened last := by
  induction last, ordered using Nat.le_induction with
  | base => exact ⟨fuel, enough, rfl⟩
  | succ last ordered inductionHypothesis =>
      rcases inductionHypothesis (Nat.le_of_succ_le within)
        fun place ahead before => inert place ahead (Nat.lt_succ_of_lt before) with
        ⟨rest, further, same⟩
      rcases inert last ordered (Nat.lt_succ_self last) with ⟨c, held, plain⟩
      cases rest with
      | zero => omega
      | succ rest =>
          exact ⟨rest, by omega, same.trans (bareEnd?_of_inert held plain within rest opened)⟩

end Bare

theorem bareEnd?_of_le {source : Source} (beyond : stop ≤ position) (fuel opened : Nat) :
    bareEnd? source stop fuel opened position = if opened = 0 then some position else none := by
  cases fuel with
  | zero => rfl
  | succ fuel => rw [bareEnd?, if_pos beyond]

/-- A destination ends where it does in the outline. -/
theorem bareEnd?_filled (proper : stencil.Proper) (inert : Inert words) {fuel fuel' : Nat}
    (opened : Nat) (enough : stop - position ≤ fuel)
    (enough' : place words stencil stop - place words stencil position ≤ fuel') :
    bareEnd? (filled words stencil) (place words stencil stop) fuel' opened
        (place words stencil position) =
      (bareEnd? stencil.drawn stop fuel opened position).map (place words stencil) := by
  have mono : StrictMono (place words stencil) := place_strictMono inert
  induction fuel using Nat.strong_induction_on generalizing fuel' opened position with
  | h fuel inductionHypothesis =>
    have ended : (if opened = 0 then some (place words stencil position) else none) =
        (if opened = 0 then some position else none).map (place words stencil) := by
      split <;> rfl
    rcases Nat.lt_or_ge position stop with before | beyond
    · rcases Nat.exists_eq_add_of_lt before with ⟨length, rfl⟩
      have placed : place words stencil position < place words stencil (position + length + 1) :=
        mono before
      obtain ⟨fuel, rfl⟩ : ∃ less, fuel = less + 1 := ⟨fuel - 1, by omega⟩
      obtain ⟨fuel', rfl⟩ : ∃ less, fuel' = less + 1 := ⟨fuel' - 1, by omega⟩
      cases held : stencil[position]? with
      | none =>
          rw [bareEnd?, bareEnd?, if_neg (Nat.not_le.mpr placed), if_neg (Nat.not_le.mpr before),
            filled_of_none held, drawn_of_none held]
          exact ended
      | some cell =>
          cases cell with
          | letter c =>
              have next : place words stencil (position + 1) = place words stencil position + 1 :=
                place_succ_of_letter held
              have onward (fewer : Nat) :
                  bareEnd? (filled words stencil) (place words stencil (position + length + 1)) fuel'
                      fewer (place words stencil (position + 1)) =
                    (bareEnd? stencil.drawn (position + length + 1) fuel fewer
                      (position + 1)).map (place words stencil) :=
                inductionHypothesis fuel (Nat.lt_succ_self fuel) fewer (by omega) (by omega)
              rw [bareEnd?, bareEnd?, if_neg (Nat.not_le.mpr placed), if_neg (Nat.not_le.mpr before),
                filled_of_letter held, drawn_of_letter held]
              simp only [← next, mono.lt_iff_lt, has_filled inert (by decide : isInert ' ' = false)]
              split
              · exact ended
              · split
                · next escapes =>
                    simp only [Bool.and_eq_true, decide_eq_true_eq] at escapes
                    rcases escapes with ⟨rfl, short⟩
                    have further : place words stencil (position + 2) =
                        place words stencil position + 2 :=
                      (place_succ_of_not_isSlot (proper.not_isSlot_succ held (by decide))).trans
                        (congrArg (· + 1) next)
                    split
                    · exact ended
                    · rw [← further]
                      exact inductionHypothesis fuel (Nat.lt_succ_self fuel) opened (by omega)
                        (by omega)
                · split
                  · split
                    · exact onward (opened + 1)
                    · rfl
                  · split
                    · split
                      · rfl
                      · exact onward (opened - 1)
                    · exact onward opened
          | slot number =>
              have slot : stencil.IsSlot position := ⟨number, held⟩
              rcases bareEnd?_passes (place_lt_succ inert position).le (mono.monotone (by omega))
                  (slot.inertBetween inert) enough' opened with ⟨rest, further, same⟩
              rw [same, bareEnd?_of_inert (drawn_of_slot held) isInert_x before]
              exact inductionHypothesis fuel (Nat.lt_succ_self fuel) opened (by omega) further
    · rw [bareEnd?_of_le beyond, bareEnd?_of_le (mono.monotone beyond), ended]

/-- What closes a slot ends a destination. -/
theorem bareEnd?_of_closes {source : Source}
    (closes : ∀ c, source[position]? = some c → closesSlot c = true) (fuel : Nat) :
    bareEnd? source stop fuel 0 position = some position := by
  cases fuel with
  | zero => rfl
  | succ fuel =>
      rw [bareEnd?]
      split
      · rfl
      · split
        · rfl
        · next c held =>
            have closer : closesSlot c = true := closes c held
            simp only [closesSlot, Bool.or_eq_true, decide_eq_true_eq] at closer
            rcases closer with (((rfl | rfl) | rfl) | rfl) | rfl <;> rfl

/-- How the href of a destination reads that lies between two positions: as in the outline if no
slot stands there, and as the word of the slot that it begins with. -/
structure Reads (words : Nat → Text) (stencil : Stencil) (start last : Nat) (href href' : Text) :
    Prop where
  same : stencil.BareBetween start last → href' = href
  word : ∀ number, stencil[start]? = some (.slot number) → last = start + 1 ∧ href' = words number

/-- A slot is the whole of the destination that begins with it. -/
theorem Proper.bareEnd?_slot (proper : stencil.Proper) (slot : stencil.IsSlot position)
    {fuel : Nat} (enough : stop - position ≤ fuel) (before : position < stop) :
    bareEnd? stencil.drawn stop fuel 0 position = some (position + 1) := by
  rcases slot with ⟨number, held⟩
  obtain ⟨fuel, rfl⟩ : ∃ less, fuel = less + 1 := ⟨fuel - 1, by omega⟩
  rw [bareEnd?_of_inert (drawn_of_slot held) isInert_x before]
  refine bareEnd?_of_closes (fun c shown => ?_) fuel
  cases behind : stencil[position + 1]? with
  | none => cases (drawn_of_none behind).symm.trans shown
  | some cell =>
      rcases proper.behind _ number cell held behind with ⟨own, rfl, closes⟩
      cases (drawn_of_letter behind).symm.trans shown
      exact closes

theorem Proper.not_angle (proper : stencil.Proper) : ¬ stencil.drawn.has position '<' = true := fun opens =>
  proper.noAngle (List.mem_of_getElem? (letter_of_drawn (Source.has_iff.mp opens) (by decide)))

theorem destination?_filled_of_none (proper : stencil.Proper) (inert : Inert words)
    (absent : destination? stencil.drawn position stop = none) :
    destination? (filled words stencil) (place words stencil position)
      (place words stencil stop) = none := by
  have mono : StrictMono (place words stencil) := place_strictMono inert
  have ends := bareEnd?_filled proper inert 0 (Nat.le_refl (stop - position))
    (Nat.le_refl (place words stencil stop - place words stencil position))
  unfold destination? at absent ⊢
  rw [has_filled inert (by decide)]
  rw [if_neg proper.not_angle] at absent ⊢
  rw [ends]
  cases found : bareEnd? stencil.drawn stop (stop - position) 0 position with
  | none => rfl
  | some last =>
      rw [found] at absent
      dsimp only [Option.map_some] at absent ⊢
      split at absent
      · next same => rw [if_pos (congrArg _ same)]
      · cases absent

theorem destination?_filled (proper : stencil.Proper) (inert : Inert words) {href : Text}
    {last : Nat} (inside : position ≤ stop)
    (found : destination? stencil.drawn position stop = some (href, last)) :
    ∃ href', destination? (filled words stencil) (place words stencil position)
        (place words stencil stop) = some (href', place words stencil last) ∧
      Reads words stencil position last href href' := by
  have mono : StrictMono (place words stencil) := place_strictMono inert
  have ends := bareEnd?_filled proper inert 0 (Nat.le_refl (stop - position))
    (Nat.le_refl (place words stencil stop - place words stencil position))
  unfold destination? at found ⊢
  rw [has_filled inert (by decide)]
  rw [if_neg proper.not_angle] at found ⊢
  rw [ends]
  cases ended : bareEnd? stencil.drawn stop (stop - position) 0 position with
  | none => rw [ended] at found; cases found
  | some other =>
      rw [ended] at found
      dsimp only [Option.map_some] at found ⊢
      split at found
      · cases found
      · next moved =>
          cases found
          rw [if_neg fun same => moved (mono.injective same)]
          have bounds := bareEnd?_eq_some inside ended
          refine ⟨_, rfl, fun bare => by rw [bare.between_filled bounds.1], fun number held => ?_⟩
          have before : position < stop := by
            rcases Nat.eq_or_lt_of_le bounds.1 with same | before
            · exact absurd same.symm moved
            · omega
          have whole := proper.bareEnd?_slot ⟨number, held⟩ (Nat.le_refl (stop - position)) before
          cases whole.symm.trans ended
          refine ⟨rfl, ?_⟩
          rw [between_filled (Nat.le_succ position), cut_succ held, text_singleton]
          exact unescape_of_inert (inert number).2

/-! ## Titles -/

section Title

variable {source : Source} {last : Nat} {closer : Char}

theorem titleEnd_of_le (beyond : stop ≤ position) (fuel start : Nat) (soFar : Text) :
    (titleEnd source stop closer start soFar fuel position).behind? = none := by
  cases fuel with
  | zero => rfl
  | succ fuel =>
      rw [titleEnd, if_pos beyond]
      rfl

theorem has_of_isInert {c mark : Char} (held : source[position]? = some c)
    (plain : isInert c = true) (marked : isInert mark = false) :
    source.has position mark = false := by
  rw [Source.has, held, beq_eq_false_iff_ne]
  exact fun same => ne_of_isInert plain marked (Option.some.inj same)

theorem titleEnd_of_inert {c : Char} (held : source[position]? = some c)
    (plain : isInert c = true) (marked : isInert closer = false) (before : position < stop)
    (fuel start : Nat) (soFar : Text) :
    titleEnd source stop closer start soFar (fuel + 1) position =
      titleEnd source stop closer start soFar fuel (position + 1) := by
  rw [titleEnd, if_neg (Nat.not_le.mpr before), has_of_isInert held plain marked,
    has_of_isInert held plain (by decide), has_of_isInert held plain (by decide)]
  rfl

/-- Inert characters are passed by the scan for the end of a title. -/
theorem titleEnd_passes (ordered : position ≤ last) (within : last ≤ stop)
    (inert : InertBetween source position last) (marked : isInert closer = false) {fuel : Nat}
    (enough : stop - position ≤ fuel) (start : Nat) (soFar : Text) :
    ∃ rest, stop - last ≤ rest ∧ titleEnd source stop closer start soFar fuel position =
      titleEnd source stop closer start soFar rest last := by
  induction last, ordered using Nat.le_induction with
  | base => exact ⟨fuel, enough, rfl⟩
  | succ last ordered inductionHypothesis =>
      rcases inductionHypothesis (Nat.le_of_succ_le within)
        fun place ahead before => inert place ahead (Nat.lt_succ_of_lt before) with
        ⟨rest, further, same⟩
      rcases inert last ordered (Nat.lt_succ_self last) with ⟨c, held, plain⟩
      cases rest with
      | zero => omega
      | succ rest =>
          exact ⟨rest, by omega,
            same.trans (titleEnd_of_inert held plain marked within rest start soFar)⟩

end Title

theorem not_isSlot_of_none (beyond : stencil[position]? = none) : ¬ stencil.IsSlot position :=
  fun ⟨_, held⟩ => nomatch beyond.symm.trans held

theorem not_isSlot_of_letter {c : Char} (held : stencil[position]? = some (.letter c)) :
    ¬ stencil.IsSlot position :=
  fun ⟨_, slot⟩ => nomatch held.symm.trans slot

/-- A title ends where it does in the outline. -/
theorem titleEnd_filled (proper : stencil.Proper) (inert : Inert words) {closer : Char}
    (marked : isInert closer = false) {fuel fuel' : Nat} (enough : stop - position ≤ fuel)
    (enough' : place words stencil stop - place words stencil position ≤ fuel') (start start' : Nat)
    (soFar soFar' : Text) :
    (titleEnd (filled words stencil) (place words stencil stop) closer start' soFar' fuel'
        (place words stencil position)).behind? =
      (titleEnd stencil.drawn stop closer start soFar fuel position).behind?.map
        (place words stencil) := by
  have mono : StrictMono (place words stencil) := place_strictMono inert
  induction fuel using Nat.strong_induction_on generalizing fuel' position with
  | h fuel inductionHypothesis =>
    rcases Nat.lt_or_ge position stop with before | beyond
    · have placed : place words stencil position < place words stencil stop := mono before
      obtain ⟨fuel, rfl⟩ : ∃ less, fuel = less + 1 := ⟨fuel - 1, by omega⟩
      by_cases slot : stencil.IsSlot position
      · have ⟨number, held⟩ := slot
        rcases titleEnd_passes (place_lt_succ inert position).le (mono.monotone before)
            (slot.inertBetween inert) marked enough' start' soFar' with ⟨rest, further, same⟩
        rw [same, titleEnd_of_inert (drawn_of_slot held) isInert_x marked before]
        exact inductionHypothesis fuel (Nat.lt_succ_self fuel) (by omega) further
      · obtain ⟨fuel', rfl⟩ : ∃ less, fuel' = less + 1 := ⟨fuel' - 1, by omega⟩
        have next : place words stencil (position + 1) = place words stencil position + 1 :=
          place_succ_of_not_isSlot slot
        rw [titleEnd, titleEnd, if_neg (Nat.not_le.mpr placed), if_neg (Nat.not_le.mpr before)]
        simp only [← next, mono.lt_iff_lt, has_filled inert marked,
          has_filled inert (by decide : isInert '(' = false),
          has_filled inert (by decide : isInert '\\' = false)]
        split
        · rfl
        · split
          · rfl
          · split
            · next escapes =>
              rw [Bool.and_eq_true, Source.has_iff] at escapes
              have held : stencil[position]? = some (.letter '\\') :=
                letter_of_drawn escapes.1 (by decide)
              have further : place words stencil (position + 2) = place words stencil position + 2 :=
                (place_succ_of_not_isSlot (proper.not_isSlot_succ held (by decide))).trans
                  (congrArg (· + 1) next)
              rw [← further]
              exact inductionHypothesis fuel (Nat.lt_succ_self fuel) (by omega) (by omega)
            · exact inductionHypothesis fuel (Nat.lt_succ_self fuel) (by omega) (by omega)
    · rw [titleEnd_of_le beyond, titleEnd_of_le (mono.monotone beyond)]
      rfl

/-- A title is found where it is found in the outline. -/
theorem titleAt_filled (proper : stencil.Proper) (inert : Inert words) (position stop : Nat) :
    (titleAt (filled words stencil) (place words stencil position)
        (place words stencil stop)).behind? =
      (titleAt stencil.drawn position stop).behind?.map (place words stencil) := by
  have mono : StrictMono (place words stencil) := place_strictMono inert
  unfold titleAt
  simp only [mono.le_iff_le]
  split
  · rfl
  · by_cases slot : stencil.IsSlot position
    · have ⟨number, held⟩ := slot
      rcases filled_of_slot inert held with ⟨c, stands, plain⟩
      have silent : titleCloser? c = none := by
        rw [titleCloser?, if_neg (ne_of_isInert plain (by decide)),
          if_neg (ne_of_isInert plain (by decide)), if_neg (ne_of_isInert plain (by decide))]
      rw [stands, drawn_of_slot held, Option.bind_some, Option.bind_some, silent]
      rfl
    · rw [getElem?_filled slot, ← place_succ_of_not_isSlot slot]
      cases found : (stencil.drawn[position]?).bind titleCloser? with
      | none => rfl
      | some closer =>
          have marked : isInert closer = false := by
            rcases Option.bind_eq_some_iff.mp found with ⟨c, _, opens⟩
            unfold titleCloser? at opens
            split at opens
            · cases opens; decide
            · split at opens
              · cases opens; decide
              · split at opens
                · cases opens; decide
                · cases opens
          have ahead : place words stencil position ≤ place words stencil (position + 1) :=
            (place_lt_succ inert position).le
          exact titleEnd_filled proper inert marked (by omega) (by omega) _ _ _ _

end Stencil

/-!
## What stands behind a label in a filled text

The parentheses behind a label end where they do in the outline, whatever the words are, so links
and images do so, too.
-/

namespace Stencil

/-- The outline as far as a position, as inline text. -/
abbrev sketch (stencil : Stencil) (stop : Nat) : Scene :=
  { source := stencil.drawn, stop, labels := [] }

/-- The filled text as far as the place of a position, as inline text. -/
abbrev scene (words : Nat → Text) (stencil : Stencil) (stop : Nat) : Scene :=
  { source := filled words stencil, stop := place words stencil stop, labels := [] }

variable {words : Nat → Text} {stencil : Stencil} {position stop : Nat}

/-! ## Blanks and titles -/

theorem even_isSpace : Even isSpace := by
  intro c plain
  simp [isSpace, ne_of_isInert plain (by decide : isInert ' ' = false),
    ne_of_isInert plain (by decide : isInert '\t' = false)]

theorem even_isSpaceOrBreak : Even isSpaceOrBreak := by
  intro c plain
  rw [isSpaceOrBreak, even_isSpace c plain]
  simp [isSpaceOrBreak, ne_of_isInert plain (by decide : isInert '\n' = false)]

theorem passBlank_scene (inert : Inert words) (stencil : Stencil) (stop position : Nat) :
    (scene words stencil stop).passBlank (place words stencil position) =
      place words stencil ((stencil.sketch stop).passBlank position) :=
  pass_filled_of_even inert even_isSpaceOrBreak stop position

theorem behindTitle_eq (scene : Scene) (behind position : Nat) :
    scene.behindTitle behind position =
      if position = behind then position
      else ((titleAt scene.source position scene.stop).behind?.map scene.passBlank).getD
        position := by
  unfold Scene.behindTitle
  split
  · rfl
  · cases titleAt scene.source position scene.stop <;> rfl

theorem behindTitle_scene (proper : stencil.Proper) (inert : Inert words) (stop behind position : Nat) :
    (scene words stencil stop).behindTitle (place words stencil behind)
        (place words stencil position) =
      place words stencil ((stencil.sketch stop).behindTitle behind position) := by
  have mono : StrictMono (place words stencil) := place_strictMono inert
  have found := titleAt_filled proper inert position stop
  rw [behindTitle_eq, behindTitle_eq]
  simp only [mono.injective.eq_iff, found]
  split
  · rfl
  · cases (titleAt stencil.drawn position stop).behind? with
    | none => rfl
    | some next => exact passBlank_scene inert stencil stop next

/-- A mark that no word holds moves on by one position. -/
theorem place_succ_of_has {mark : Char} (shown : stencil.drawn.has position mark = true)
    (marked : isInert mark = false) :
    place words stencil (position + 1) = place words stencil position + 1 :=
  place_succ_of_letter (letter_of_drawn (Source.has_iff.mp shown) marked)

/-! ## Parentheses behind a label -/

/-- How the href of a link reads whose destination begins at one position and that ends at another:
as in the outline without slots, and as the word of the slot that it begins with. -/
structure Leads (words : Nat → Text) (stencil : Stencil) (start stop : Nat) (href href' : Text) :
    Prop where
  same : stencil.BareBetween start stop → href' = href
  word : ∀ number, stencil[start]? = some (.slot number) → href' = words number

/-- What follows a label in the filled text is what follows it in the outline. -/
inductive SameTail (words : Nat → Text) (stencil : Stencil) (start : Nat) :
    Scene.Tail → Scene.Tail → Prop where
  | target {href href' : Text} {stop : Nat} (leads : Leads words stencil start stop href href')
      (within : start < stop) (closed : ∃ last, stop = last + 1 ∧
        stencil[last]? = some (.letter ')')) :
      SameTail words stencil start (.target href stop) (.target href' (place words stencil stop))
  | broken (next next' : Nat) : SameTail words stencil start (.broken next) (.broken next')
  | hopeless : SameTail words stencil start .hopeless .hopeless

theorem destinationStart_sketch (proper : stencil.Proper) (stop position : Nat) :
    (stencil.sketch stop).destinationStart position =
      (stencil.sketch stop).passBlank (position + 1) := by
  unfold Scene.destinationStart
  rw [if_neg]
  exact fun opens => proper.not_angle (Bool.and_eq_true_iff.mp opens).2

theorem destinationStart_scene (proper : stencil.Proper) (inert : Inert words)
    (held : stencil[position]? = some (.letter '(')) (stop : Nat) :
    (scene words stencil stop).destinationStart (place words stencil position) =
      place words stencil ((stencil.sketch stop).destinationStart position) := by
  rw [destinationStart_sketch proper]
  unfold Scene.destinationStart
  rw [← place_succ_of_letter held, passBlank_scene inert, if_neg]
  intro opens
  have angle := (Bool.and_eq_true_iff.mp opens).2
  rw [show (scene words stencil stop).source = filled words stencil from rfl,
    has_filled inert (by decide)] at angle
  exact proper.not_angle angle

/-- Parentheses close behind a place if they close behind the position in the outline. -/
theorem closes_scene (inert : Inert words) (stencil : Stencil) (stop last : Nat) :
    (decide (place words stencil last < place words stencil stop) &&
        (filled words stencil).has (place words stencil last) ')') =
      (decide (last < stop) && stencil.drawn.has last ')') := by
  have mono : StrictMono (place words stencil) := place_strictMono inert
  rw [has_filled inert (by decide)]
  simp only [mono.lt_iff_lt]

theorem linkTail_scene (proper : stencil.Proper) (inert : Inert words)
    (held : stencil[position]? = some (.letter '(')) (stop : Nat) :
    SameTail words stencil ((stencil.sketch stop).destinationStart position)
      ((stencil.sketch stop).linkTail position)
      ((scene words stencil stop).linkTail (place words stencil position)) := by
  have mono : StrictMono (place words stencil) := place_strictMono inert
  unfold Scene.linkTail
  rw [← place_succ_of_letter held, destinationStart_sketch proper]
  simp only [passBlank_scene inert, mono.le_iff_le]
  generalize (stencil.sketch stop).passBlank (position + 1) = start
  by_cases beyond : stop ≤ start
  · rw [if_pos beyond, if_pos beyond]
    exact .hopeless
  · rw [if_neg beyond, if_neg beyond]
    have inside : start ≤ stop := (Nat.lt_of_not_le beyond).le
    cases found : destination? stencil.drawn start stop with
    | none =>
        simp only [destination?_filled_of_none proper inert found,
          has_filled inert (by decide : isInert ')' = false)]
        by_cases closes : stencil.drawn.has start ')' = true
        · rw [if_pos closes, if_pos closes, ← place_succ_of_has closes (by decide)]
          have letter : stencil[start]? = some (.letter ')') :=
            letter_of_drawn (Source.has_iff.mp closes) (by decide)
          exact .target ⟨fun _ => rfl, fun _ slot => nomatch letter.symm.trans slot⟩
            (Nat.lt_succ_self start) ⟨start, rfl, letter⟩
        · rw [if_neg closes, if_neg closes]
          exact .broken _ _
    | some result =>
        rcases result with ⟨href, behind⟩
        rcases destination?_filled proper inert inside found with ⟨href', made, reads⟩
        have bounds := le_of_destination? inside found
        have blanks := Scene.le_passBlank (stencil.sketch stop) behind
        have further := Scene.le_behindTitle (stencil.sketch stop) behind
          ((stencil.sketch stop).passBlank behind)
        simp only [made, passBlank_scene inert, behindTitle_scene proper inert,
          closes_scene inert]
        generalize (stencil.sketch stop).behindTitle behind
          ((stencil.sketch stop).passBlank behind) = last at further
        by_cases closes : (decide (last < stop) && stencil.drawn.has last ')') = true
        · rw [if_pos closes, if_pos closes,
            ← place_succ_of_has (Bool.and_eq_true_iff.mp closes).2 (by decide)]
          refine .target ⟨fun bare => reads.same fun place ahead before => ?_,
            fun number slot => (reads.word number slot).2⟩ (by omega) ⟨last, rfl, ?_⟩
          · exact bare place ahead (by omega)
          · exact letter_of_drawn (Source.has_iff.mp (Bool.and_eq_true_iff.mp closes).2) (by decide)
        · rw [if_neg closes, if_neg closes]
          exact .broken _ _

theorem imageClose_scene (proper : stencil.Proper) (inert : Inert words) (stop behind : Nat) :
    (let last := (scene words stencil stop).behindTitle (place words stencil behind)
        ((scene words stencil stop).passBlank (place words stencil behind))
      if last < place words stencil stop && (filled words stencil).has last ')' then some (last + 1)
      else none) =
    (let last := (stencil.sketch stop).behindTitle behind ((stencil.sketch stop).passBlank behind)
      if last < stop && stencil.drawn.has last ')' then some (last + 1) else none).map
        (place words stencil) := by
  simp only [passBlank_scene inert, behindTitle_scene proper inert, closes_scene inert]
  split
  · next closes =>
      rw [← place_succ_of_has (Bool.and_eq_true_iff.mp closes).2 (by decide)]
      rfl
  · rfl

theorem exists_of_closes {last stop' : Nat}
    (found : (if decide (last < stop) && stencil.drawn.has last ')' then some (last + 1) else none) =
      some stop') :
    ∃ last, stop' = last + 1 ∧ stencil[last]? = some (.letter ')') := by
  rw [Option.ite_none_right_eq_some] at found
  rcases found with ⟨closes, same⟩
  cases same
  exact ⟨last, rfl,
    letter_of_drawn (Source.has_iff.mp (Bool.and_eq_true_iff.mp closes).2) (by decide)⟩

theorem closed_of_imageTail? {stop' : Nat}
    (found : (stencil.sketch stop).imageTail? position = some stop') :
    ∃ last, stop' = last + 1 ∧ stencil[last]? = some (.letter ')') := by
  unfold Scene.imageTail? at found
  dsimp only at found
  split at found
  · cases found
  · split at found <;> exact exists_of_closes found

theorem imageTail?_scene (proper : stencil.Proper) (inert : Inert words)
    (held : stencil[position]? = some (.letter '(')) (stop : Nat) :
    (scene words stencil stop).imageTail? (place words stencil position) =
      ((stencil.sketch stop).imageTail? position).map (place words stencil) := by
  have mono : StrictMono (place words stencil) := place_strictMono inert
  unfold Scene.imageTail?
  rw [← place_succ_of_letter held]
  simp only [passBlank_scene inert, mono.le_iff_le]
  generalize (stencil.sketch stop).passBlank (position + 1) = start
  by_cases beyond : stop ≤ start
  · rw [if_pos beyond, if_pos beyond]
    rfl
  · rw [if_neg beyond, if_neg beyond]
    have inside : start ≤ stop := (Nat.lt_of_not_le beyond).le
    cases found : destination? stencil.drawn start stop with
    | none =>
        simp only [destination?_filled_of_none proper inert found]
        exact imageClose_scene proper inert stop start
    | some result =>
        rcases destination?_filled proper inert inside found with ⟨href', made, _⟩
        simp only [made]
        exact imageClose_scene proper inert stop result.2

end Stencil

end Markup
end Crosslink

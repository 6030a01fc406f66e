import Mathlib.Order.MinMax
import Crosslink.Markup.Destination
import Crosslink.Proofs.Markup.Source

namespace Crosslink
namespace Markup

/-!
Texts with slots.  A stencil is a text in which the destinations of some links are left open.  Its
outline shows one letter for each slot, and filling the slots with words gives a text.  Every
position of the outline has a place in the filled text; whatever reads the text from such a place
does there what it does in the outline, as long as the words are too plain to be told from a letter.
-/

/-- A part of a stencil. -/
inductive Cell where
  | letter (c : Char)
  /-- The place of a destination. -/
  | slot (number : Nat)
  deriving Repr, DecidableEq

namespace Cell

/-- The character that stands for a cell in the outline. -/
def outline : Cell → Char
  | letter c => c
  | slot _ => 'x'

/-- What stands for a cell in the filled text. -/
def fill (words : Nat → Text) : Cell → Text
  | letter c => [c]
  | slot number => words number

end Cell

/-- A text with slots for the destinations of links. -/
abbrev Stencil := List Cell

/-- A character that means nothing to the reader of a destination, nor to that of the text around
it, except that it may end a run of plain text. -/
def isInert (c : Char) : Bool :=
  0x20 < c.toNat && c.toNat != 0x7F && !isBlank c
    && !(['!', '\x22', '&', '\x27', '(', ')', '<', '>', '[', '\\', ']', '\x60'] : Text).contains c

/-- Every slot is filled with a word of inert characters. -/
def Inert (words : Nat → Text) : Prop :=
  ∀ number, words number ≠ [] ∧ ∀ c ∈ words number, isInert c = true

/-- A character that may stand behind a destination that is not in angle brackets. -/
def closesSlot (c : Char) : Bool :=
  c = ' ' || c = '\t' || c = '\r' || c = '\n' || c = ')'

namespace Stencil

/-- The text in which a letter stands for each slot. -/
def outline (stencil : Stencil) : Text :=
  stencil.map Cell.outline

/-- The text in which words fill the slots. -/
def text (words : Nat → Text) (stencil : Stencil) : Text :=
  stencil.flatMap (Cell.fill words)

/-- The place of a position of the outline in the filled text. -/
def place (words : Nat → Text) (stencil : Stencil) (position : Nat) : Nat :=
  (text words (stencil.take position)).length + (position - stencil.length)

/-- Slots stand behind the bracket of a label and a parenthesis, and in front of something that ends
a destination.  No angle bracket opens. -/
structure Proper (stencil : Stencil) : Prop where
  before : ∀ position number, stencil[position]? = some (.slot number) → ∃ label,
    position = label + 2 ∧ stencil[label]? = some (.letter ']') ∧
      stencil[label + 1]? = some (.letter '(')
  behind : ∀ position number cell, stencil[position]? = some (.slot number) →
    stencil[position + 1]? = some cell → ∃ c, cell = .letter c ∧ closesSlot c = true
  noAngle : Cell.letter '<' ∉ stencil

/-- The cell at a position is a slot. -/
def IsSlot (stencil : Stencil) (position : Nat) : Prop :=
  ∃ number, stencil[position]? = some (.slot number)

/-- No slot stands from a position on before another one. -/
def BareBetween (stencil : Stencil) (start stop : Nat) : Prop :=
  ∀ position, start ≤ position → position < stop → ¬ stencil.IsSlot position

variable {words : Nat → Text} {stencil : Stencil} {position : Nat} {cell : Cell}

/-! ## Places -/

@[simp] theorem length_outline (stencil : Stencil) : stencil.outline.length = stencil.length :=
  List.length_map _

theorem getElem?_outline (stencil : Stencil) (position : Nat) :
    stencil.outline[position]? = stencil[position]?.map Cell.outline :=
  List.getElem?_map

theorem text_append (first second : Stencil) :
    text words (first ++ second) = text words first ++ text words second :=
  List.flatMap_append

@[simp] theorem text_singleton (cell : Cell) : text words [cell] = cell.fill words :=
  List.flatMap_singleton _ _

@[simp] theorem place_zero : place words stencil 0 = 0 := by
  rw [place, List.take_zero, Nat.zero_sub]
  rfl

theorem place_of_le (within : position ≤ stencil.length) :
    place words stencil position = (text words (stencil.take position)).length := by
  rw [place, Nat.sub_eq_zero_of_le within, Nat.add_zero]

theorem place_of_length_le (beyond : stencil.length ≤ position) :
    place words stencil position =
      (text words stencil).length + (position - stencil.length) := by
  rw [place, List.take_of_length_le beyond]

@[simp] theorem place_length : place words stencil stencil.length = (text words stencil).length := by
  rw [place_of_length_le (Nat.le_refl _), Nat.sub_self, Nat.add_zero]

theorem lt_length_of_held (held : stencil[position]? = some cell) : position < stencil.length :=
  (List.getElem?_eq_some_iff.mp held).1

/-- The next position is as far away as the cell is long. -/
theorem place_succ (held : stencil[position]? = some cell) :
    place words stencil (position + 1) =
      place words stencil position + (cell.fill words).length := by
  have within : position < stencil.length := lt_length_of_held held
  calc place words stencil (position + 1)
    _ = (text words (stencil.take position ++ [cell])).length := by
      rw [place_of_le within, List.take_add_one, held, Option.toList_some]
    _ = place words stencil position + (cell.fill words).length := by
      rw [place_of_le (Nat.le_of_lt within), text_append, List.length_append, text_singleton]

@[simp] theorem place_succ_of_letter {c : Char} (held : stencil[position]? = some (.letter c)) :
    place words stencil (position + 1) = place words stencil position + 1 :=
  place_succ held

theorem place_succ_of_none (beyond : stencil[position]? = none) :
    place words stencil (position + 1) = place words stencil position + 1 := by
  have beyond : stencil.length ≤ position := List.getElem?_eq_none_iff.mp beyond
  rw [place_of_length_le beyond, place_of_length_le (Nat.le_succ_of_le beyond)]
  omega

theorem place_lt_succ (inert : Inert words) (position : Nat) :
    place words stencil position < place words stencil (position + 1) := by
  cases held : stencil[position]? with
  | none =>
      rw [place_succ_of_none held]
      exact Nat.lt_succ_self _
  | some cell =>
      have nonempty : 0 < (cell.fill words).length := by
        cases cell with
        | letter c => exact Nat.one_pos
        | slot number => exact List.length_pos_iff.mpr (inert number).1
      rw [place_succ held]
      omega

theorem place_strictMono (inert : Inert words) : StrictMono (place words stencil) :=
  strictMono_nat_of_lt_succ (place_lt_succ inert)

/-- Without slots between them, positions lie as far apart as in the outline. -/
theorem BareBetween.place_add {start length : Nat}
    (bare : stencil.BareBetween start (start + length)) :
    place words stencil (start + length) = place words stencil start + length := by
  induction length with
  | zero => rfl
  | succ length inductionHypothesis =>
      have earlier : place words stencil (start + length) = place words stencil start + length :=
        inductionHypothesis fun position ahead before =>
          bare position ahead (Nat.lt_succ_of_lt before)
      rw [← Nat.add_assoc]
      cases held : stencil[start + length]? with
      | none => rw [place_succ_of_none held, earlier, Nat.add_assoc]
      | some cell =>
          cases cell with
          | letter c => rw [place_succ_of_letter held, earlier, Nat.add_assoc]
          | slot number =>
              exact absurd ⟨number, held⟩ (bare _ (Nat.le_add_right _ _) (Nat.lt_succ_self _))

/-! ## Characters -/

/-- Behind a place stands what fills the cells behind the position. -/
theorem drop_place (within : position ≤ stencil.length) :
    (text words stencil).drop (place words stencil position) =
      text words (stencil.drop position) := by
  conv_lhs => rw [← List.take_append_drop position stencil, text_append]
  rw [List.take_append_drop, place_of_le within, List.drop_left]

theorem take_place (position : Nat) :
    (text words stencil).take (place words stencil position) =
      text words (stencil.take position) := by
  rcases Nat.le_total position stencil.length with within | beyond
  · conv_lhs => rw [← List.take_append_drop position stencil, text_append]
    rw [List.take_append_drop, place_of_le within, List.take_left]
  · rw [place_of_length_le beyond, List.take_of_length_le beyond,
      List.take_of_length_le (Nat.le_add_right _ _)]

/-- Where no slot stands, filling changes nothing. -/
theorem text_eq_outline (bare : ∀ number, Cell.slot number ∉ stencil) :
    text words stencil = stencil.outline := by
  induction stencil with
  | nil => rfl
  | cons cell rest inductionHypothesis =>
      have later : text words rest = outline rest :=
        inductionHypothesis fun number held => bare number (List.mem_cons_of_mem _ held)
      cases cell with
      | letter c => exact congrArg (c :: ·) later
      | slot number => exact absurd List.mem_cons_self (bare number)

theorem drop_place_of_held (held : stencil[position]? = some cell) :
    (text words stencil).drop (place words stencil position) =
      cell.fill words ++ text words (stencil.drop (position + 1)) := by
  rw [drop_place (Nat.le_of_lt (lt_length_of_held held)),
    List.drop_eq_getElem_cons (lt_length_of_held held), (List.getElem?_eq_some_iff.mp held).2]
  rfl

/-- A character of a cell stands at its place. -/
theorem getElem?_text_add {step : Nat} (held : stencil[position]? = some cell)
    (within : step < (cell.fill words).length) :
    (text words stencil)[place words stencil position + step]? = (cell.fill words)[step]? := by
  rw [← List.getElem?_drop, drop_place_of_held held, List.getElem?_append_left within]

theorem getElem?_text_of_letter {c : Char} (held : stencil[position]? = some (.letter c)) :
    (text words stencil)[place words stencil position]? = some c :=
  getElem?_text_add held (show 0 < 1 from Nat.one_pos)

theorem getElem?_text_of_none (beyond : stencil[position]? = none) :
    (text words stencil)[place words stencil position]? = none := by
  have beyond : stencil.length ≤ position := List.getElem?_eq_none_iff.mp beyond
  rw [List.getElem?_eq_none_iff, place_of_length_le beyond]
  exact Nat.le_add_right _ _

/-- Every place of the filled text between two positions lies in a cell. -/
theorem exists_cell {start stop spot : Nat} (ahead : place words stencil start ≤ spot)
    (before : spot < place words stencil stop) (ordered : start ≤ stop) :
    ∃ position, start ≤ position ∧ position < stop ∧ place words stencil position ≤ spot ∧
      spot < place words stencil (position + 1) := by
  induction stop, ordered using Nat.le_induction with
  | base => exact absurd before (Nat.not_lt.mpr ahead)
  | succ stop ordered inductionHypothesis =>
      rcases Nat.lt_or_ge spot (place words stencil stop) with earlier | later
      · rcases inductionHypothesis earlier with ⟨position, first, second, third⟩
        exact ⟨position, first, Nat.lt_succ_of_lt second, third⟩
      · exact ⟨stop, ordered, Nat.lt_succ_self stop, later, before⟩

/-- What stands in a cell of the filled text: the letter at the place of the cell, or an inert
character. -/
theorem exists_of_cell (inert : Inert words) {spot : Nat}
    (ahead : place words stencil position ≤ spot)
    (before : spot < place words stencil (position + 1)) (within : position < stencil.length) :
    (∃ c, stencil[position]? = some (.letter c) ∧ spot = place words stencil position ∧
        (text words stencil)[spot]? = some c) ∨
      ∃ number c, stencil[position]? = some (.slot number) ∧
        (text words stencil)[spot]? = some c ∧ isInert c = true := by
  have held : stencil[position]? = some stencil[position] := List.getElem?_eq_getElem within
  have cut : spot = place words stencil position + (spot - place words stencil position) := by omega
  have inCell : spot - place words stencil position < (stencil[position].fill words).length := by
    rw [place_succ held] at before
    omega
  have stands := getElem?_text_add held inCell
  rw [← cut] at stands
  cases kind : stencil[position] with
  | letter c =>
      rw [kind] at held inCell
      have same : spot = place words stencil position := by
        change _ < 1 at inCell
        omega
      exact Or.inl ⟨c, held, same, same ▸ getElem?_text_of_letter held⟩
  | slot number =>
      rw [kind] at held inCell stands
      refine Or.inr ⟨number, _, held, stands.trans (List.getElem?_eq_getElem inCell), ?_⟩
      exact (inert number).2 _ (List.getElem_mem inCell)

end Stencil

/-!
## Scans of a filled text

A scan that takes inert characters for what it takes a letter for comes to the place of the position
that it comes to in the outline, and so does a scan that a parenthesis stops, since a parenthesis
stands in front of each slot.
-/

namespace Stencil

variable {words : Nat → Text} {stencil : Stencil} {test : Char → Bool} {start stop : Nat}

/-- The outline under a scanner. -/
def drawn (stencil : Stencil) : Source :=
  stencil.outline.toArray

/-- The filled text under a scanner. -/
def filled (words : Nat → Text) (stencil : Stencil) : Source :=
  (text words stencil).toArray

@[simp] theorem size_drawn (stencil : Stencil) : stencil.drawn.size = stencil.length := by
  simp [drawn]

@[simp] theorem size_filled (words : Nat → Text) (stencil : Stencil) :
    (filled words stencil).size = place words stencil stencil.length := by
  simp [filled]

section Characters

variable {position : Nat}

theorem drawn_of_letter {c : Char} (held : stencil[position]? = some (.letter c)) :
    stencil.drawn[position]? = some c := by
  rw [drawn, List.getElem?_toArray, getElem?_outline, held]
  rfl

theorem drawn_of_slot {number : Nat} (held : stencil[position]? = some (.slot number)) :
    stencil.drawn[position]? = some 'x' := by
  rw [drawn, List.getElem?_toArray, getElem?_outline, held]
  rfl

theorem drawn_of_none (beyond : stencil[position]? = none) : stencil.drawn[position]? = none := by
  rw [drawn, List.getElem?_toArray, getElem?_outline, beyond]
  rfl

theorem filled_of_letter {c : Char} (held : stencil[position]? = some (.letter c)) :
    (filled words stencil)[place words stencil position]? = some c := by
  rw [filled, List.getElem?_toArray, getElem?_text_of_letter held]

theorem filled_of_none (beyond : stencil[position]? = none) :
    (filled words stencil)[place words stencil position]? = none := by
  rw [filled, List.getElem?_toArray, getElem?_text_of_none beyond]

theorem filled_of_slot (inert : Inert words) {number : Nat}
    (held : stencil[position]? = some (.slot number)) :
    ∃ c, (filled words stencil)[place words stencil position]? = some c ∧ isInert c = true := by
  rcases exists_of_cell inert (Nat.le_refl _) (place_lt_succ inert position)
      (lt_length_of_held held) with ⟨c, letter, _⟩ | ⟨number, c, _, stands, plain⟩
  · cases held.symm.trans letter
  · exact ⟨c, (List.getElem?_toArray ..).trans stands, plain⟩

/-- Away from slots the filled text shows what the outline shows. -/
theorem getElem?_filled (bare : ¬ stencil.IsSlot position) :
    (filled words stencil)[place words stencil position]? = stencil.drawn[position]? := by
  cases held : stencil[position]? with
  | none => rw [filled_of_none held, drawn_of_none held]
  | some cell =>
      cases cell with
      | letter c => rw [filled_of_letter held, drawn_of_letter held]
      | slot number => exact absurd ⟨number, held⟩ bare

theorem isInert_x : isInert 'x' = true := by
  decide

/-- A mark that no word holds stands in the filled text where it stands in the outline. -/
theorem has_filled (inert : Inert words) {mark : Char} (marked : isInert mark = false)
    (position : Nat) :
    (filled words stencil).has (place words stencil position) mark =
      stencil.drawn.has position mark := by
  by_cases slot : stencil.IsSlot position
  · rcases slot with ⟨number, held⟩
    rcases filled_of_slot inert held with ⟨c, stands, plain⟩
    have other : c ≠ mark := fun same => Bool.noConfusion ((same ▸ plain).symm.trans marked)
    have another : 'x' ≠ mark := fun same => Bool.noConfusion ((same ▸ isInert_x).symm.trans marked)
    rw [Source.has, Source.has, stands, drawn_of_slot held, beq_eq_false_iff_ne.mpr, beq_eq_false_iff_ne.mpr]
    · exact fun same => another (Option.some.inj same)
    · exact fun same => other (Option.some.inj same)
  · rw [Source.has, Source.has, getElem?_filled slot]

end Characters

/-! ## Scans -/

/-- A test that takes inert characters for what it takes a letter for. -/
def Even (test : Char → Bool) : Prop :=
  ∀ c, isInert c = true → test c = test 'x'

theorem pass_filled_of (inert : Inert words)
    (even : ∀ position, start ≤ position → position ≤ stencil.drawn.pass test stop start →
      stencil.IsSlot position → Even test) :
    (filled words stencil).pass test (place words stencil stop) (place words stencil start) =
      place words stencil (stencil.drawn.pass test stop start) := by
  have mono : StrictMono (place words stencil) := place_strictMono inert
  have ahead : start ≤ stencil.drawn.pass test stop start := Source.le_pass stop start
  refine Source.pass_eq_of (mono.monotone ahead) ?_ ?_ ?_
  · rw [← mono.monotone.map_max]
    exact mono.monotone (Source.pass_le stop start)
  · intro spot later before
    rcases exists_cell later before ahead with ⟨position, first, second, third, fourth⟩
    rcases Source.test_of_lt_pass first second with ⟨c, shown, passes⟩
    have within : position < stencil.length := by
      rw [← size_drawn]
      exact (Array.getElem?_eq_some_iff.mp shown).1
    rcases exists_of_cell inert third fourth within with
      ⟨own, held, _, stands⟩ | ⟨number, own, held, stands, plain⟩
    · cases (drawn_of_letter held).symm.trans shown
      exact ⟨c, (List.getElem?_toArray ..).trans stands, passes⟩
    · cases (drawn_of_slot held).symm.trans shown
      refine ⟨own, (List.getElem?_toArray ..).trans stands, ?_⟩
      rw [even position first second.le ⟨number, held⟩ own plain, passes]
  · intro short c stands
    have short : stencil.drawn.pass test stop start < stop := mono.lt_iff_lt.mp short
    cases held : stencil[stencil.drawn.pass test stop start]? with
    | none => cases (filled_of_none held).symm.trans stands
    | some cell =>
        cases cell with
        | letter own =>
            cases (filled_of_letter held).symm.trans stands
            exact Source.test_pass_eq_false short (drawn_of_letter held)
        | slot number =>
            rcases filled_of_slot inert held with ⟨own, there, plain⟩
            cases there.symm.trans stands
            rw [even _ ahead (Nat.le_refl _) ⟨number, held⟩ c plain]
            exact Source.test_pass_eq_false short (drawn_of_slot held)

/-- A scan that takes inert characters for letters. -/
theorem pass_filled_of_even (inert : Inert words) (even : Even test) (stop start : Nat) :
    (filled words stencil).pass test (place words stencil stop) (place words stencil start) =
      place words stencil (stencil.drawn.pass test stop start) :=
  pass_filled_of inert fun _ _ _ _ => even

/-- No slot stands where a scan comes to that a parenthesis stops, unless it starts at one. -/
theorem Proper.bare_of_closed (proper : stencil.Proper) (closed : test '(' = false)
    (bare : ¬ stencil.IsSlot start) :
    stencil.BareBetween start (stencil.drawn.pass test stop start + 1) := by
  rintro position ahead within ⟨number, held⟩
  rcases proper.before position number held with ⟨label, rfl, _, parenthesis⟩
  have later : start ≤ label + 1 := by
    rcases Nat.eq_or_lt_of_le ahead with same | before
    · exact absurd ⟨number, same ▸ held⟩ bare
    · exact Nat.le_of_lt_succ before
  have before : label + 1 < stencil.drawn.pass test stop start := Nat.lt_of_succ_lt_succ within
  rcases Source.test_of_lt_pass later before with ⟨c, shown, passes⟩
  cases (drawn_of_letter parenthesis).symm.trans shown
  cases closed.symm.trans passes

/-- A scan that a parenthesis stops. -/
theorem Proper.pass_filled (proper : stencil.Proper) (inert : Inert words)
    (closed : test '(' = false) (bare : ¬ stencil.IsSlot start) (stop : Nat) :
    (filled words stencil).pass test (place words stencil stop) (place words stencil start) =
      place words stencil (stencil.drawn.pass test stop start) :=
  pass_filled_of inert fun position ahead within held =>
    absurd held (proper.bare_of_closed closed bare position ahead (Nat.lt_succ_of_le within))

/-- Such a scan passes as many characters as in the outline. -/
theorem Proper.place_pass (proper : stencil.Proper) (closed : test '(' = false)
    (bare : ¬ stencil.IsSlot start) (stop : Nat) :
    place words stencil (stencil.drawn.pass test stop start) =
      place words stencil start + (stencil.drawn.pass test stop start - start) := by
  have ahead : start ≤ stencil.drawn.pass test stop start := Source.le_pass stop start
  have passed : stencil.BareBetween start (stencil.drawn.pass test stop start + 1) :=
    proper.bare_of_closed closed bare
  conv_lhs => rw [← Nat.add_sub_cancel' ahead]
  exact BareBetween.place_add fun position later before => passed position later (by omega)

/-- The cells between two positions. -/
def cut (stencil : Stencil) (start stop : Nat) : Stencil :=
  (stencil.take stop).drop start

theorem between_drawn (stencil : Stencil) (start stop : Nat) :
    stencil.drawn.between start stop = outline (stencil.cut start stop) := by
  rw [Source.between_eq, drawn, outline, outline, cut, List.map_drop, List.map_take]

/-- What stands between two positions fills the cells between them. -/
theorem between_filled (ordered : start ≤ stop) :
    (filled words stencil).between (place words stencil start) (place words stencil stop) =
      text words (stencil.cut start stop) := by
  rw [Source.between_eq, filled, take_place, cut]
  rcases Nat.le_total start stencil.length with within | beyond
  · conv_lhs => rw [← List.take_append_drop start (stencil.take stop), text_append]
    rw [List.take_take, Nat.min_eq_left ordered, place_of_le within, List.drop_left]
  · rw [List.take_of_length_le (beyond.trans ordered), List.drop_of_length_le beyond,
      place_of_length_le beyond, List.drop_of_length_le (Nat.le_add_right _ _)]
    rfl

theorem cut_succ {cell : Cell} (held : stencil[start]? = some cell) :
    stencil.cut start (start + 1) = [cell] := by
  rw [cut, List.take_add_one, held, Option.toList_some]
  exact List.drop_left' (List.length_take_of_le (lt_length_of_held held).le)

theorem mem_cut_iff {cell : Cell} :
    cell ∈ stencil.cut start stop ↔
      ∃ position, start ≤ position ∧ position < stop ∧ stencil[position]? = some cell := by
  rw [cut, List.mem_iff_getElem?]
  constructor
  · rintro ⟨step, held⟩
    rw [List.getElem?_drop, List.getElem?_take] at held
    split at held
    · next before => exact ⟨start + step, Nat.le_add_right _ _, before, held⟩
    · cases held
  · rintro ⟨position, ahead, before, held⟩
    refine ⟨position - start, ?_⟩
    rw [List.getElem?_drop, Nat.add_sub_cancel' ahead, List.getElem?_take, if_pos before, held]

/-- Where no slot stands, the filled text reads as the outline. -/
theorem BareBetween.between_filled (bare : stencil.BareBetween start stop)
    (ordered : start ≤ stop) :
    (filled words stencil).between (place words stencil start) (place words stencil stop) =
      stencil.drawn.between start stop := by
  rw [Stencil.between_filled ordered, between_drawn]
  refine text_eq_outline fun number held => ?_
  rcases mem_cut_iff.mp held with ⟨position, ahead, before, stands⟩
  exact bare position ahead before ⟨number, stands⟩

end Stencil

end Markup
end Crosslink

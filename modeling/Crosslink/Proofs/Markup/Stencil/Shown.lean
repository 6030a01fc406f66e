import Crosslink.Proofs.Markup.Stencil.Frame
import Crosslink.Proofs.Text.Occurrence

namespace Crosslink
namespace Markup

/-!
Places told by line breaks and parentheses.  Containers, headings and trimming take characters off
the ends of lines, and a tab may be written as spaces, so a column of a document says little about
one of its inline text.  No parenthesis is ever among what is taken.  So the number of the line and
the number of parentheses on either side tell where a place of the one text is in the other.
-/

/-- How many parentheses open on the last line of a text, if so many have opened in front. -/
def openedAfter (before : Nat) (text : Text) : Nat :=
  text.foldl (fun opened c => if c = '\n' then 0 else if c = '(' then opened + 1 else opened) before

/-- How many parentheses open on the first line of a text. -/
def opens (text : Text) : Nat :=
  (Text.before '\n' text).count '('

section Opened

variable {before : Nat} {front text : Text}

theorem openedAfter_append (before : Nat) (front text : Text) :
    openedAfter before (front ++ text) = openedAfter (openedAfter before front) text :=
  List.foldl_append

@[simp] theorem openedAfter_break (before : Nat) (front text : Text) :
    openedAfter before (front ++ '\n' :: text) = openedAfter 0 text := by
  rw [openedAfter_append]
  rfl

theorem openedAfter_of_oneLine (oneLine : '\n' ∉ text) :
    openedAfter before text = before + text.count '(' := by
  induction text generalizing before with
  | nil => rfl
  | cons c rest inductionHypothesis =>
      have notBreak : c ≠ '\n' := (List.ne_of_not_mem_cons oneLine).symm
      have step : openedAfter before (c :: rest) =
          openedAfter (if c = '(' then before + 1 else before) rest :=
        congrArg (openedAfter · rest) (if_neg notBreak)
      rw [step, inductionHypothesis (List.not_mem_of_not_mem_cons oneLine), List.count_cons]
      split
      · next opening =>
          rw [if_pos (beq_iff_eq.mpr opening)]
          omega
      · next other => rw [if_neg (by simpa using other), Nat.add_zero]

/-- Where no parenthesis stands on a line before a place, none has opened. -/
theorem openedAfter_take_eq_zero {place : Nat}
    (closed : ∀ spot < place, (text.take spot).count '\n' = (text.take place).count '\n' →
      text[spot]? ≠ some '(') : openedAfter 0 (text.take place) = 0 := by
  induction place with
  | zero => rfl
  | succ place inductionHypothesis =>
      rw [List.take_add_one, openedAfter_append]
      cases held : text[place]? with
      | none =>
          refine inductionHypothesis fun spot short onLine => closed spot (by omega) ?_
          rw [List.take_add_one, held, Option.toList_none, List.append_nil, onLine]
      | some c =>
          by_cases isBreak : c = '\n'
          · exact if_pos isBreak
          · have same : (text.take (place + 1)).count '\n' = (text.take place).count '\n' := by
              rw [List.take_add_one, held, List.count_append, Option.toList_some,
                List.count_singleton, if_neg (by simpa using isBreak), Nat.add_zero]
            have other : c ≠ '(' := fun opening =>
              closed place (Nat.lt_succ_self _) same.symm (opening ▸ held)
            have earlier := inductionHypothesis fun spot short onLine =>
              closed spot (Nat.lt_succ_of_lt short) (onLine.trans same.symm)
            rw [earlier, Option.toList_some]
            exact (if_neg isBreak).trans (if_neg other)

theorem opens_append_of_mem (later : Text) (broken : '\n' ∈ front) :
    opens (front ++ later) = opens front :=
  congrArg (List.count '(') (Text.before_append_of_mem later broken)

theorem opens_append (later : Text) (oneLine : '\n' ∉ front) :
    opens (front ++ later) = front.count '(' + opens later := by
  rw [opens, opens, Text.before_append later oneLine, List.count_append]

theorem opens_append_break (front later : Text) :
    opens (front ++ '\n' :: later) = opens front :=
  congrArg (List.count '(') (Text.before_append_mark front _ (.inr ⟨later, rfl⟩))

theorem opens_append_closed {later : Text} (closed : opens later = 0) :
    opens (front ++ later) = opens front := by
  by_cases broken : '\n' ∈ front
  · exact opens_append_of_mem later broken
  · rw [opens_append later broken, closed, opens, Text.before_of_not_mem broken, Nat.add_zero]

theorem opens_eq_zero (closed : '(' ∉ text) : opens text = 0 :=
  List.count_eq_zero.mpr fun held => closed (Text.mem_of_mem_before held)

end Opened

/-- The place between two parts of a document and the place between two parts of a text that was
taken from it, from the line with a number on, are the same place. -/
structure Aligned (number : Nat) (front back ownFront ownBack : Text) : Prop where
  line : front.count '\n' = number + ownFront.count '\n'
  opened : openedAfter 0 front = openedAfter 0 ownFront
  opens : opens back = opens ownBack

namespace Aligned

variable {number : Nat} {front back ownFront ownBack text : Text}

theorem trans {middle ahead : Text} (outer : Aligned 0 front back middle ahead)
    (inner : Aligned number middle ahead ownFront ownBack) :
    Aligned number front back ownFront ownBack where
  line := outer.line.trans ((Nat.zero_add _).trans inner.line)
  opened := outer.opened.trans inner.opened
  opens := outer.opens.trans inner.opens

/-- Parts of one line, without what stands around them there. -/
theorem of_oneLine {before after : Text} (line : (before ++ ownFront).count '\n' = number)
    (oneLine : '\n' ∉ ownFront) (opened : openedAfter 0 before = 0) (opens : Markup.opens after = 0) :
    Aligned number (before ++ ownFront) (ownBack ++ after) ownFront ownBack where
  line := by rw [line, List.count_eq_zero.mpr oneLine, Nat.add_zero]
  opened := by rw [openedAfter_append, opened]
  opens := opens_append_closed opens

/-- Something without parentheses in front, on the first line. -/
theorem prepend (aligned : Aligned number front back ownFront ownBack) (oneLine : '\n' ∉ text)
    (closed : '(' ∉ text) : Aligned number front back (text ++ ownFront) ownBack where
  line := by rw [aligned.line, List.count_append, List.count_eq_zero.mpr oneLine, Nat.zero_add]
  opened := by
    rw [aligned.opened, openedAfter_append, openedAfter_of_oneLine oneLine,
      List.count_eq_zero.mpr closed]
  opens := aligned.opens

/-- What is trimmed off holds no parenthesis. -/
theorem of_append {before after : Text}
    (aligned : Aligned number front back (before ++ ownFront) (ownBack ++ after))
    (oneLine : '\n' ∉ before) (closed : '(' ∉ before) (closedAfter : '(' ∉ after) :
    Aligned number front back ownFront ownBack where
  line := by
    rw [aligned.line, List.count_append, List.count_eq_zero.mpr oneLine, Nat.zero_add]
  opened := by
    rw [aligned.opened, openedAfter_append, openedAfter_of_oneLine oneLine,
      List.count_eq_zero.mpr closed]
  opens := aligned.opens.trans (opens_append_closed (opens_eq_zero closedAfter))

theorem append_break (aligned : Aligned number front back ownFront ownBack) (rest : Text) :
    Aligned number front back ownFront (ownBack ++ '\n' :: rest) where
  line := aligned.line
  opened := aligned.opened
  opens := aligned.opens.trans (opens_append_break ownBack rest).symm

/-- A line in front. -/
theorem behind_break (aligned : Aligned (number + 1) front back ownFront ownBack)
    (oneLine : '\n' ∉ text) : Aligned number front back (text ++ '\n' :: ownFront) ownBack where
  line := by
    rw [aligned.line, List.count_append, List.count_cons_self, List.count_eq_zero.mpr oneLine]
    omega
  opened := by rw [aligned.opened, openedAfter_break]
  opens := aligned.opens

end Aligned

/-!
## Inline text with slots

What is taken of a document with slots as a run of inline text has again its slots between a
parenthesis and something that ends a destination, and each of them is at the same place as in the
document, as far as line breaks and parentheses tell.
-/

namespace Stencil

variable {words : Nat → Text} {stencil cells front back rest : Stencil} {number start stop slot : Nat}
  {line : Line} {frame : Frame}

@[simp] theorem outline_cons (cell : Cell) (rest : Stencil) :
    outline (cell :: rest) = cell.outline :: rest.outline :=
  rfl

@[simp] theorem outline_append (front back : Stencil) :
    (front ++ back).outline = front.outline ++ back.outline :=
  List.map_append

/-- A text that is put together of two is cut in the one or in the other. -/
theorem exists_of_append_eq_append_cons {α : Type} {first second front back : List α} {middle : α}
    (whole : first ++ second = front ++ middle :: back) :
    (∃ more, first = front ++ middle :: more ∧ back = more ++ second) ∨
      ∃ earlier, front = first ++ earlier ∧ second = earlier ++ middle :: back := by
  rcases List.append_eq_append_iff.mp whole with ⟨earlier, rfl, rfl⟩ | ⟨more, rfl, same⟩
  · exact Or.inr ⟨earlier, rfl, rfl⟩
  · cases more with
    | nil => exact Or.inr ⟨[], ((List.append_nil _).trans (List.append_nil _)).symm, same.symm⟩
    | cons cell more =>
        cases same
        exact Or.inl ⟨more, rfl, rfl⟩

/-! ## What stands around a slot -/

/-- Cells end with the bracket of a label and a parenthesis. -/
def EndsOpen (front : Stencil) : Prop :=
  ∃ label, front = label ++ [.letter ']', .letter '(']

/-- Cells are none, or begin with a letter that may stand behind a destination. -/
def BeginsClosed (back : Stencil) : Prop :=
  back = [] ∨ ∃ c rest, back = .letter c :: rest ∧ closesSlot c = true

theorem Proper.around (proper : stencil.Proper) (whole : stencil = front ++ .slot slot :: back) :
    EndsOpen front ∧ BeginsClosed back := by
  subst whole
  have held : (front ++ Cell.slot slot :: back)[front.length]? = some (.slot slot) := by
    rw [List.getElem?_append_right (Nat.le_refl _), Nat.sub_self]
    rfl
  constructor
  · rcases proper.before _ slot held with ⟨label, size, bracket, parenthesis⟩
    rw [List.getElem?_append_left (by omega)] at bracket parenthesis
    refine ⟨front.take label, ?_⟩
    rcases List.getElem?_eq_some_iff.mp bracket with ⟨first, isBracket⟩
    rcases List.getElem?_eq_some_iff.mp parenthesis with ⟨second, isParenthesis⟩
    conv_lhs => rw [← List.take_append_drop label front, List.drop_eq_getElem_cons first,
      List.drop_eq_getElem_cons second, List.drop_of_length_le size.le, isBracket, isParenthesis]
  · cases back with
    | nil => exact Or.inl rfl
    | cons cell more =>
        have next : (front ++ Cell.slot slot :: cell :: more)[front.length + 1]? = some cell := by
          rw [List.getElem?_append_right (Nat.le_add_right _ 1), Nat.add_sub_cancel_left]
          rfl
        rcases proper.behind _ slot cell held next with ⟨c, rfl, closes⟩
        exact Or.inr ⟨c, more, rfl, closes⟩

theorem proper_of_around (noAngle : .letter '<' ∉ stencil)
    (around : ∀ front slot back, stencil = front ++ .slot slot :: back →
      EndsOpen front ∧ BeginsClosed back) : stencil.Proper := by
  have cutAt {position number : Nat} (held : stencil[position]? = some (.slot number)) :
      stencil = stencil.take position ++ .slot number :: stencil.drop (position + 1) := by
    rcases List.getElem?_eq_some_iff.mp held with ⟨within, isSlot⟩
    conv_lhs => rw [← List.take_append_drop position stencil, List.drop_eq_getElem_cons within,
      isSlot]
  refine ⟨fun position number held => ?_, fun position number cell held next => ?_, noAngle⟩
  · rcases (around _ _ _ (cutAt held)).1 with ⟨label, front⟩
    have size := congrArg List.length front
    rw [List.length_take_of_le (lt_length_of_held held).le, List.length_append] at size
    have shown {step : Nat} (short : step < 2) : stencil[label.length + step]? =
        [Cell.letter ']', .letter '('][step]? := by
      have early : label.length + step < position := by
        rw [size]
        exact Nat.add_lt_add_left short _
      rw [← List.getElem?_take_of_lt early, front,
        List.getElem?_append_right (Nat.le_add_right _ _), Nat.add_sub_cancel_left]
    exact ⟨label.length, size, shown Nat.two_pos, shown Nat.one_lt_two⟩
  · have first : (stencil.drop (position + 1))[0]? = some cell := by
      rw [List.getElem?_drop, Nat.add_zero, next]
    rcases (around _ _ _ (cutAt held)).2 with none | ⟨c, rest, back, closes⟩
    · rw [none] at first
      cases first
    · rw [back] at first
      cases first
      exact ⟨c, rfl, closes⟩

/-! ## Inline text of a document -/

/-- A slot of inline text is one of the document, at the same place. -/
structure SlotShown (stencil : Stencil) (number : Nat) (front : Stencil) (slot : Nat)
    (back : Stencil) : Prop where
  endsOpen : EndsOpen front
  beginsClosed : BeginsClosed back
  aligned : ∃ before after : Stencil, stencil = before ++ .slot slot :: after ∧
    Aligned number before.outline after.outline front.outline back.outline

/-- The cells are taken from a document as inline text, from the line with a number on. -/
structure Shown (stencil : Stencil) (number : Nat) (cells : Stencil) : Prop where
  noAngle : .letter '<' ∉ cells
  slots : ∀ front slot back, cells = front ++ .slot slot :: back →
    SlotShown stencil number front slot back

/-- The cell is a blank letter. -/
def blankCell : Cell → Bool
  | .letter c => isBlank c
  | .slot _ => false

/-- The cells are blank letters. -/
def Blank (cells : Stencil) : Prop :=
  ∀ cell ∈ cells, blankCell cell = true

theorem Blank.not_mem {blank : Stencil} (isBlank : Blank blank) {c : Char}
    (other : Crosslink.isBlank c = false) : .letter c ∉ blank :=
  fun held => Bool.noConfusion ((isBlank _ held).symm.trans other)

theorem not_mem_outline {c : Char} (absent : .letter c ∉ cells) (other : c ≠ 'x') :
    c ∉ cells.outline := by
  intro held
  rcases List.mem_map.mp held with ⟨cell, inCells, shows⟩
  cases cell with
  | letter d =>
      cases shows
      exact absent inCells
  | slot number => exact other shows.symm

theorem Blank.closed {blank : Stencil} (isBlank : Blank blank) : '(' ∉ blank.outline :=
  not_mem_outline (isBlank.not_mem (by decide)) (by decide)

theorem EndsOpen.of_append {before : Stencil} (blank : Blank before)
    (ends : EndsOpen (before ++ front)) : EndsOpen front := by
  rcases ends with ⟨label, whole⟩
  rcases List.append_eq_append_iff.mp whole with ⟨earlier, rfl, rfl⟩ | ⟨more, rfl, same⟩
  · exact ⟨earlier, rfl⟩
  · cases more with
    | nil => exact ⟨[], same.symm⟩
    | cons cell more =>
        have first : cell = .letter ']' := (List.cons.inj same).1.symm
        have blankFirst := blank cell (List.mem_append_right _ List.mem_cons_self)
        rw [first] at blankFirst
        cases blankFirst

theorem EndsOpen.of_append_of_le {before : Stencil} (ends : EndsOpen (before ++ front))
    (further : 2 ≤ front.length) : EndsOpen front := by
  rcases ends with ⟨label, whole⟩
  rcases List.append_eq_append_iff.mp whole with ⟨earlier, rfl, rfl⟩ | ⟨more, rfl, same⟩
  · exact ⟨earlier, rfl⟩
  · have size := congrArg List.length same
    rw [List.length_append, List.length_cons, List.length_singleton] at size
    have none : more = [] := List.length_eq_zero_iff.mp (by omega)
    rw [none] at same
    exact ⟨[], same.symm⟩

theorem BeginsClosed.of_append {after : Stencil} (begins : BeginsClosed (back ++ after)) :
    BeginsClosed back := by
  cases back with
  | nil => exact Or.inl rfl
  | cons cell more =>
      rcases begins with none | ⟨c, rest, whole, closes⟩
      · cases none
      · cases whole
        exact Or.inr ⟨c, more, rfl, closes⟩

namespace SlotShown

theorem prepend (shown : SlotShown stencil number front slot back) {before : Stencil}
    (oneLine : '\n' ∉ before.outline) (closed : '(' ∉ before.outline) :
    SlotShown stencil number (before ++ front) slot back where
  endsOpen := by
    rcases shown.endsOpen with ⟨label, rfl⟩
    exact ⟨before ++ label, (List.append_assoc _ _ _).symm⟩
  beginsClosed := shown.beginsClosed
  aligned := by
    rcases shown.aligned with ⟨first, last, whole, aligned⟩
    exact ⟨first, last, whole, outline_append before front ▸ aligned.prepend oneLine closed⟩

theorem of_append {before after : Stencil}
    (shown : SlotShown stencil number (before ++ front) slot (back ++ after))
    (blank : Blank before) (oneLine : '\n' ∉ before.outline) (blankAfter : Blank after) :
    SlotShown stencil number front slot back where
  endsOpen := shown.endsOpen.of_append blank
  beginsClosed := shown.beginsClosed.of_append
  aligned := by
    rcases shown.aligned with ⟨first, last, whole, aligned⟩
    rw [outline_append, outline_append] at aligned
    exact ⟨first, last, whole, aligned.of_append oneLine blank.closed blankAfter.closed⟩

theorem append_break (shown : SlotShown stencil number front slot back) (rest : Stencil) :
    SlotShown stencil number front slot (back ++ .letter '\n' :: rest) where
  endsOpen := shown.endsOpen
  beginsClosed := by
    rcases shown.beginsClosed with rfl | ⟨c, more, rfl, closes⟩
    · exact Or.inr ⟨'\n', rest, rfl, by decide⟩
    · exact Or.inr ⟨c, _, rfl, closes⟩
  aligned := by
    rcases shown.aligned with ⟨first, last, whole, aligned⟩
    exact ⟨first, last, whole, outline_append back _ ▸ aligned.append_break rest.outline⟩

theorem behind_break (shown : SlotShown stencil (number + 1) front slot back) {before : Stencil}
    (oneLine : '\n' ∉ before.outline) :
    SlotShown stencil number (before ++ .letter '\n' :: front) slot back where
  endsOpen := by
    rcases shown.endsOpen with ⟨label, rfl⟩
    exact ⟨before ++ .letter '\n' :: label, (List.append_assoc before (.letter '\n' :: label) _).symm⟩
  beginsClosed := shown.beginsClosed
  aligned := by
    rcases shown.aligned with ⟨first, last, whole, aligned⟩
    exact ⟨first, last, whole, outline_append before _ ▸ aligned.behind_break oneLine⟩

end SlotShown

namespace Shown

theorem proper (shown : Shown stencil number cells) : cells.Proper :=
  proper_of_around shown.noAngle fun front slot back whole =>
    ⟨(shown.slots front slot back whole).endsOpen, (shown.slots front slot back whole).beginsClosed⟩

theorem spaces_append (shown : Shown stencil number cells) (width : Nat) :
    Shown stencil number (List.replicate width (.letter ' ') ++ cells) where
  noAngle held := by
    rcases List.mem_append.mp held with space | inCells
    · cases List.eq_of_mem_replicate space
    · exact shown.noAngle inCells
  slots front slot back whole := by
    have absent {c : Char} (other : c ≠ ' ') :
        c ∉ outline (List.replicate width (.letter ' ')) := by
      intro held
      rcases List.mem_map.mp held with ⟨cell, inSpaces, shows⟩
      rw [List.eq_of_mem_replicate inSpaces] at shows
      exact other shows.symm
    rcases exists_of_append_eq_append_cons whole with ⟨more, spaces, _⟩ | ⟨earlier, rfl, inCells⟩
    · have inSpaces : Cell.slot slot ∈ List.replicate width (Cell.letter ' ') :=
        spaces ▸ List.mem_append_right front List.mem_cons_self
      cases List.eq_of_mem_replicate inSpaces
    · exact (shown.slots earlier slot back inCells).prepend (absent (by decide)) (absent (by decide))

theorem append_break (shown : Shown stencil number cells) (oneLine : '\n' ∉ cells.outline)
    (later : Shown stencil (number + 1) rest) :
    Shown stencil number (cells ++ .letter '\n' :: rest) where
  noAngle held := by
    rcases List.mem_append.mp held with inCells | behind
    · exact shown.noAngle inCells
    · exact later.noAngle ((List.mem_cons.mp behind).resolve_left (by decide))
  slots front slot back whole := by
    rcases exists_of_append_eq_append_cons whole with ⟨more, inCells, rfl⟩ | ⟨earlier, rfl, behind⟩
    · exact (shown.slots front slot more inCells).append_break rest
    · cases earlier with
      | nil => cases behind
      | cons cell earlier =>
          rcases List.cons.inj behind with ⟨rfl, inRest⟩
          exact (later.slots earlier slot back inRest).behind_break oneLine

theorem of_append {before after : Stencil} (shown : Shown stencil number (before ++ (cells ++ after)))
    (blank : Blank before) (oneLine : '\n' ∉ before.outline) (blankAfter : Blank after) :
    Shown stencil number cells where
  noAngle held := shown.noAngle (List.mem_append_right _ (List.mem_append_left _ held))
  slots front slot back whole := by
    have further := shown.slots (before ++ front) slot (back ++ after) (by
      rw [whole, List.append_assoc, List.append_assoc]
      rfl)
    exact further.of_append blank oneLine blankAfter

end Shown

/-! ## Parts of a line -/

theorem take_append_cut (stencil : Stencil) (ordered : start ≤ stop) :
    stencil.take start ++ (stencil.cut start stop ++ stencil.drop stop) = stencil := by
  have first : stencil.take start = (stencil.take stop).take start := by
    rw [List.take_take, Nat.min_eq_left ordered]
  rw [cut, first, ← List.append_assoc, List.take_append_drop, List.take_append_drop]

theorem drop_eq_cut_append (ordered : start ≤ stop) :
    stencil.drop start = stencil.cut start stop ++ stencil.drop stop := by
  have whole := (List.take_append_drop start stencil).trans (take_append_cut stencil ordered).symm
  exact List.append_cancel_left whole

/-- What stands around a part of a line: margin in front of it, and no parenthesis behind it. -/
structure ClearPart (stencil : Stencil) (line : Line) (start stop : Nat) : Prop where
  low : line.start ≤ start
  high : stop ≤ line.stop
  ordered : start ≤ stop
  margin : ∀ place, line.text ≤ place → place < start → stencil.HasMargin place
  closed : ∀ place, stop ≤ place → place < line.stop → stencil[place]? ≠ some (.letter '(')

section Part

variable (proper : stencil.Proper) (clear : ClearLine stencil number line)
  (part : ClearPart stencil line start stop)
include clear part

theorem ClearPart.not_mem_cut : '\n' ∉ (stencil.cut start stop).outline := by
  rw [← between_drawn]
  exact (clear.lies.flat.mono part.low part.high).not_mem_between

theorem ClearPart.opened_take (nonempty : line.text < line.stop)
    (onLine : (stencil.outline.take start).count '\n' = number) :
    openedAfter 0 (stencil.outline.take start) = 0 := by
  refine openedAfter_take_eq_zero fun place before sameLine shown => ?_
  have margin : stencil.HasMargin place := by
    rcases Nat.lt_or_ge place line.text with short | beyond
    · exact clear.head nonempty place short (sameLine.trans onLine)
    · exact part.margin place beyond before
  rcases margin with ⟨c, held, isMargin⟩
  rw [getElem?_outline, held] at shown
  cases shown
  cases isMargin

theorem ClearPart.opens_drop : opens (stencil.outline.drop stop) = 0 := by
  have closedLine : '(' ∉ (stencil.cut stop line.stop).outline := by
    intro held
    rcases mem_cut_iff.mp ((mem_outline_iff (by decide) _).mp held) with
      ⟨place, ahead, before, parenthesis⟩
    exact part.closed place ahead before parenthesis
  have closedBehind : opens (stencil.outline.drop line.stop) = 0 := by
    rcases clear.lies.ends with breaks | last
    · rw [← Array.getElem?_toList, toList_drawn] at breaks
      rcases List.getElem?_eq_some_iff.mp breaks with ⟨within, isBreak⟩
      rw [List.drop_eq_getElem_cons within, isBreak]
      rfl
    · rw [size_drawn] at last
      rw [List.drop_of_length_le ((length_outline stencil).trans last.symm).le]
      rfl
  have cutLine : stencil.outline.drop stop =
      (stencil.cut stop line.stop).outline ++ stencil.outline.drop line.stop := by
    rw [outline, outline, ← List.map_drop, ← List.map_drop, ← List.map_append,
      ← drop_eq_cut_append part.high]
  rw [cutLine, opens_append_closed closedBehind, opens_eq_zero closedLine]

include proper

/-- The bracket and the parenthesis in front of a slot of the part belong to it. -/
theorem ClearPart.bare {position : Nat} (isSlot : stencil.IsSlot position) (ahead : start ≤ position)
    (before : position < stop) : start + 2 ≤ position := by
  have onLine := clear.text_le proper isSlot (part.low.trans ahead) (before.trans_le part.high)
  rcases isSlot with ⟨own, held⟩
  rcases proper.before position own held with ⟨label, rfl, bracket, _⟩
  have inside : ¬ label < start := fun short =>
    (part.margin label (by omega) short).not_letter (by decide) bracket
  omega

theorem ClearPart.shown : Shown stencil number (stencil.cut start stop) where
  noAngle held := proper.noAngle (List.mem_of_mem_take (List.mem_of_mem_drop held))
  slots front slot back inPart := by
    have whole : stencil = stencil.take start ++ front ++ .slot slot :: (back ++ stencil.drop stop) := by
      have cutPart := take_append_cut stencil part.ordered
      rw [inPart] at cutPart
      rw [List.append_assoc]
      exact cutPart.symm.trans (congrArg (stencil.take start ++ ·) (List.append_assoc ..))
    have within : stop ≤ stencil.length := part.high.trans clear.stop_le
    have size : (stencil.take start).length = start :=
      List.length_take_of_le (part.ordered.trans within)
    have position : (stencil.take start ++ front).length = start + front.length := by
      rw [List.length_append, size]
    have before : start + front.length < stop := by
      have length := congrArg List.length inPart
      rw [cut, List.length_drop, List.length_take_of_le within, List.length_append,
        List.length_cons] at length
      omega
    have held : stencil[start + front.length]? = some (.slot slot) := by
      conv_lhs => rw [whole, ← position, List.getElem?_append_right (Nat.le_refl _), Nat.sub_self]
      rfl
    have far := part.bare proper clear ⟨slot, held⟩ (Nat.le_add_right _ _) before
    have nonempty : line.text < line.stop :=
      (Nat.le_add_right _ 2).trans_lt <| (clear.text_le proper ⟨slot, held⟩
        (part.low.trans (Nat.le_add_right _ _)) (before.trans_le part.high)).trans_lt
          (before.trans_le part.high)
    have numbered {place : Nat} (ahead : start ≤ place) (short : place < stop) :
        (stencil.outline.take place).count '\n' = number :=
      clear.lies.numbered place (part.low.trans ahead) (short.trans_le part.high)
    have frontLine : '\n' ∉ front.outline := by
      have flat := part.not_mem_cut clear
      rw [inPart, outline_append] at flat
      exact fun held => flat (List.mem_append_left _ held)
    have around := proper.around whole
    refine ⟨around.1.of_append_of_le (by omega), around.2.of_append, _, _, whole, ?_⟩
    rw [outline_append, outline_append]
    refine .of_oneLine ?_ frontLine ?_ ?_
    · have taken : stencil.outline.take (start + front.length) =
          outline (stencil.take start) ++ front.outline := by
        conv_lhs => rw [whole, ← position, outline_append, ← length_outline, List.take_left,
          outline_append]
      rw [← taken]
      exact numbered (Nat.le_add_right _ _) before
    · rw [outline, List.map_take]
      exact part.opened_take clear nonempty (numbered (Nat.le_refl _) (by omega))
    · rw [outline, List.map_drop]
      exact part.opens_drop clear

end Part

end Stencil

end Markup
end Crosslink

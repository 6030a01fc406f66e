import Crosslink.Proofs.Markup.Leaves
import Crosslink.Proofs.Markup.Stencil.Frame

namespace Crosslink
namespace Markup
namespace Stencil

/-!
Containers of a filled text.  The marks of quotations and list items are taken off the front of a
line as in the outline, and what is taken off is margin, so the frames inside of a container are
related as those around it.
-/

variable {words : Nat → Text} {stencil : Stencil} {frame inner : Frame} {number : Nat} {line : Line}

/-! ## Further in -/

/-- Indentation that is passed is margin, and no more of it is passed than asked for. -/
theorem passIndent_margin (stencil : Stencil) (column : Int) (most position : Nat) (offset : Int) :
    (passIndent stencil.drawn column most position offset).1 ≤ position + most ∧
      ∀ place, position ≤ place →
        place < (passIndent stencil.drawn column most position offset).1 →
          stencil.HasMargin place := by
  induction most generalizing position offset with
  | zero => exact ⟨Nat.le_refl position, fun place ahead before => by
      exact absurd before (Nat.not_lt.mpr ahead)⟩
  | succ most inductionHypothesis =>
      have further {c : Char} (held : stencil[position]? = some (.letter c))
          (margin : isMargin c = true) (offset : Int) :
          (passIndent stencil.drawn column most (position + 1) offset).1 ≤ position + (most + 1) ∧
            ∀ place, position ≤ place →
              place < (passIndent stencil.drawn column most (position + 1) offset).1 →
                stencil.HasMargin place := by
        rcases inductionHypothesis (position + 1) offset with ⟨within, passed⟩
        refine ⟨by omega, fun place ahead before => ?_⟩
        rcases Nat.eq_or_lt_of_le ahead with same | later
        · exact ⟨c, same ▸ held, margin⟩
        · exact passed place later before
      rw [passIndent]
      split
      · next tab =>
          exact further (letter_of_drawn (Source.has_iff.mp tab) (by decide)) (by decide) _
      · split
        · next space =>
            exact further (letter_of_drawn (Source.has_iff.mp space) (by decide)) (by decide) _
        · exact ⟨Nat.le_add_right _ _, fun place ahead before =>
            absurd before (Nat.not_lt.mpr ahead)⟩

/-- A container takes margin off the front of a line. -/
theorem ClearLine.advance (clear : ClearLine stencil number line)
    (nonempty : line.text < line.stop) {further : Line}
    (lies : further.Lies stencil.drawn number) (later : line.start ≤ further.start)
    (same : further.stop = line.stop) (within : further.text ≤ line.stop)
    (margin : ∀ place, line.text ≤ place → place < further.text → stencil.HasMargin place) :
    ClearLine stencil number further where
  lies := lies
  within := same ▸ within
  own place ahead before := by
    rcases Nat.lt_or_ge place line.text with short | beyond
    · exact clear.own place (later.trans ahead) short
    · exact margin place beyond before
  head _ place before onLine := by
    rcases Nat.lt_or_ge place line.text with short | beyond
    · exact clear.head nonempty place short onLine
    · exact margin place beyond before

namespace ClearFrame

theorem lies (clear : ClearFrame stencil frame) : frame.Lies := by
  intro number
  rw [clear.source]
  exact (clear.lines number).lies

theorem setLine (clear : ClearFrame stencil inner) (clearLine : ClearLine stencil number line) :
    ClearFrame stencil (inner.setLine number line) where
  source := clear.source
  lines other := by
    rw [Frame.line, Frame.setLine, Array.getElem?_setIfInBounds]
    split
    · next same =>
        split
        · exact same ▸ clearLine
        · next outside =>
            have last := clear.lines other
            rwa [Frame.line, Array.getElem?_eq_none_iff.mpr (by omega)] at last
    · exact clear.lines other

end ClearFrame

theorem fillFrame_setLine (words : Nat → Text) (stencil : Stencil) (frame : Frame) (number : Nat)
    (line : Line) :
    fillFrame words stencil (frame.setLine number line) =
      (fillFrame words stencil frame).setLine number (fillLine words stencil line) := by
  unfold fillFrame Frame.setLine
  rw [Array.map_setIfInBounds]

/-! ## Quotations -/

/-- A line that shows something begins its text before it ends. -/
theorem ClearLine.text_lt (clear : ClearLine stencil number line) {c : Char}
    (held : stencil[line.text]? = some (.letter c)) (other : c ≠ '\n') : line.text < line.stop := by
  refine Nat.lt_of_le_of_ne clear.within fun same => ?_
  rcases clear.lies.ends with breaks | last
  · rw [← same, drawn_of_letter held] at breaks
    exact other (Option.some.inj breaks)
  · have within := lt_length_of_held held
    rw [size_drawn] at last
    omega

/-- Behind a mark that is a letter on a line, and a blank letter that may be taken with it, stands
no slot, and the line has not ended yet. -/
theorem ClearLine.behind_mark (clear : ClearLine stencil number line) (proper : stencil.Proper)
    {position : Nat} {c : Char} (held : stencil[position]? = some (.letter c)) (other : c ≠ '(')
    (within : position < line.stop) {taken : Nat}
    (takes : taken = 0 ∨
      taken = 1 ∧ (stencil.drawn[position + 1]?).any isSpace = true) :
    position + 1 + taken ≤ line.stop ∧ ¬ stencil.IsSlot (position + 1 + taken) ∧
      ∀ place, position + 1 ≤ place → place < position + 1 + taken → stencil.HasMargin place := by
  have bare : ¬ stencil.IsSlot (position + 1) := proper.not_isSlot_succ held other
  rcases takes with rfl | ⟨rfl, spaced⟩
  · exact ⟨within, bare, fun place ahead before => absurd before (Nat.not_lt.mpr ahead)⟩
  · obtain ⟨blank, shown, isSpace⟩ :
        ∃ blank, stencil.drawn[position + 1]? = some blank ∧ isSpace blank = true := by
      cases shown : stencil.drawn[position + 1]? with
      | none => cases shown ▸ spaced
      | some blank =>
          rw [shown, Option.any_some] at spaced
          exact ⟨blank, rfl, spaced⟩
    have next := letter_of_bare bare shown
    have notBreak : blank ≠ '\n' := by
      rintro rfl
      cases isSpace
    have margin : stencil.HasMargin (position + 1) := by
      refine ⟨blank, next, ?_⟩
      rw [Markup.isSpace, Bool.or_eq_true, decide_eq_true_eq, decide_eq_true_eq] at isSpace
      rcases isSpace with rfl | rfl <;> decide
    refine ⟨?_, proper.not_isSlot_of_margin margin, fun place ahead before => ?_⟩
    · refine Nat.lt_of_le_of_ne within fun same => ?_
      rcases clear.lies.ends with breaks | last
      · rw [← same, shown] at breaks
        exact notBreak (Option.some.inj breaks)
      · have inside := lt_length_of_held next
        rw [size_drawn] at last
        omega
    · exact (by omega : place = position + 1) ▸ margin

/-- The tab behind the mark of a quotation reaches beyond the space that belongs to the mark. -/
def tabStays (frame : Frame) (number : Nat) : Bool :=
  frame.source.has ((frame.line number).text + 1) '\t' &&
    ((frame.line number).column + ((frame.line number).indent + 1)) % 4 != 3

/-- How many characters behind its mark a line of a quotation loses. -/
def spaceTaken (frame : Frame) (number : Nat) : Nat :=
  if (frame.source[(frame.line number).text + 1]?).any isSpace && !tabStays frame number then 1
  else 0

theorem spaceTaken_cases (frame : Frame) (number : Nat) :
    spaceTaken frame number = 0 ∨ spaceTaken frame number = 1 ∧
      (frame.source[(frame.line number).text + 1]?).any isSpace = true := by
  unfold spaceTaken
  split
  · next takes => exact Or.inr ⟨rfl, (Bool.and_eq_true_iff.mp takes).1⟩
  · exact Or.inl rfl

/-- Where indentation is passed on a line of a quotation, and how far. -/
def quoteIndent (frame : Frame) (number : Nat) : Nat × Int :=
  let start := (frame.line number).text + 1 + spaceTaken frame number
  passIndent frame.source
    ((frame.line number).column + if tabStays frame number then 1 else 0)
    ((frame.line number).stop - start) start
    ((frame.line number).indent + 1 + (spaceTaken frame number : Nat))

theorem unquoted_eq (frame : Frame) (number : Nat) :
    frame.unquoted number =
      { start := (frame.line number).text + 1 + spaceTaken frame number
        stop := (frame.line number).stop
        shift := (quoteIndent frame number).1 -
          ((frame.line number).text + 1 + spaceTaken frame number)
        indent := (quoteIndent frame number).2 -
          ((frame.line number).indent + 1 + (spaceTaken frame number : Nat))
        column := (frame.line number).indent + 1 +
          if (frame.source[(frame.line number).text + 1]?).any isSpace then 1 else 0 } :=
  rfl

theorem text_unquoted (frame : Frame) (number : Nat) :
    (frame.unquoted number).text = (quoteIndent frame number).1 := by
  rw [unquoted_eq, Line.text]
  exact Nat.add_sub_cancel' (passIndent_spec _ _ _ _ _).1

section Quote

variable (proper : stencil.Proper) (clear : ClearFrame stencil frame)
  (quote : frame.first? number = some '>')
include proper clear quote

theorem unquoted_margin :
    (frame.line number).text + 1 + spaceTaken frame number ≤ (frame.line number).stop ∧
      ¬ stencil.IsSlot ((frame.line number).text + 1 + spaceTaken frame number) ∧
        ∀ place, (frame.line number).text + 1 ≤ place →
          place < (frame.line number).text + 1 + spaceTaken frame number →
            stencil.HasMargin place := by
  have held := letter_of_first? proper clear quote
  have takes := spaceTaken_cases frame number
  rw [clear.source] at takes
  exact (clear.lines number).behind_mark proper held (by decide)
    ((clear.lines number).text_lt held (by decide)) takes

theorem clearLine_unquoted : ClearLine stencil number (frame.unquoted number) := by
  have held := letter_of_first? proper clear quote
  rcases unquoted_margin proper clear quote with ⟨within, _, taken⟩
  have indent := passIndent_margin stencil
    ((frame.line number).column + if tabStays frame number then 1 else 0)
    ((frame.line number).stop - ((frame.line number).text + 1 + spaceTaken frame number))
    ((frame.line number).text + 1 + spaceTaken frame number)
    ((frame.line number).indent + 1 + (spaceTaken frame number : Nat))
  have text := text_unquoted frame number
  rw [quoteIndent, clear.source] at text
  rw [← text] at indent
  have start : (frame.unquoted number).start =
      (frame.line number).text + 1 + spaceTaken frame number := rfl
  have ahead : (frame.line number).start ≤ (frame.line number).text := Nat.le_add_right _ _
  refine (clear.lines number).advance ((clear.lines number).text_lt held (by decide))
    (clear.source ▸ clear.lies.unquoted number) (by omega) rfl (by omega) fun place later before => ?_
  rcases Nat.eq_or_lt_of_le later with rfl | behind
  · exact ⟨'>', held, by decide⟩
  · rcases Nat.lt_or_ge place ((frame.line number).text + 1 + spaceTaken frame number) with
      short | beyond
    · exact taken place behind short
    · exact indent.2 place beyond before

variable (inert : Inert words)
include inert

/-- The same character stands behind the mark of a quotation. -/
theorem behindMark_fill : (fillFrame words stencil frame).source[
      ((fillFrame words stencil frame).line number).text + 1]? =
    frame.source[(frame.line number).text + 1]? := by
  have held := letter_of_first? proper clear quote
  have next : place words stencil ((frame.line number).text + 1) =
      place words stencil (frame.line number).text + 1 := place_succ_of_letter held
  rw [text_fill inert clear, ← next, source_fillFrame, clear.source,
    getElem?_filled (proper.not_isSlot_succ held (by decide))]

theorem tabStays_fill : tabStays (fillFrame words stencil frame) number = tabStays frame number := by
  rw [tabStays, tabStays, Source.has, Source.has, behindMark_fill proper clear quote inert,
    line_fillFrame clear.source]
  rfl

theorem spaceTaken_fill :
    spaceTaken (fillFrame words stencil frame) number = spaceTaken frame number := by
  rw [spaceTaken, spaceTaken, tabStays_fill proper clear quote inert,
    behindMark_fill proper clear quote inert]

theorem unquotedStart_fill : ((fillFrame words stencil frame).line number).text + 1 +
      spaceTaken (fillFrame words stencil frame) number =
    place words stencil ((frame.line number).text + 1 + spaceTaken frame number) := by
  have held := letter_of_first? proper clear quote
  have taken := (unquoted_margin proper clear quote).2.2
  have bare : stencil.BareBetween (frame.line number).text
      ((frame.line number).text + (1 + spaceTaken frame number)) := by
    intro place ahead before
    rcases Nat.eq_or_lt_of_le ahead with rfl | later
    · exact not_isSlot_of_letter held
    · exact (taken place later (by omega)).not_isSlot
  rw [spaceTaken_fill proper clear quote inert, text_fill inert clear, Nat.add_assoc, Nat.add_assoc,
    bare.place_add]

theorem quoteIndent_fill : quoteIndent (fillFrame words stencil frame) number =
    (place words stencil (quoteIndent frame number).1, (quoteIndent frame number).2) := by
  rcases unquoted_margin proper clear quote with ⟨within, bare, _⟩
  unfold quoteIndent
  dsimp only
  rw [unquotedStart_fill proper clear quote inert, tabStays_fill proper clear quote inert,
    spaceTaken_fill proper clear quote inert, line_fillFrame clear.source, source_fillFrame,
    clear.source]
  exact passIndent_filled proper inert within bare _ _

theorem fillLine_unquoted :
    fillLine words stencil (frame.unquoted number) =
      (fillFrame words stencil frame).unquoted number := by
  rw [unquoted_eq (fillFrame words stencil frame), unquotedStart_fill proper clear quote inert,
    spaceTaken_fill proper clear quote inert, quoteIndent_fill proper clear quote inert,
    behindMark_fill proper clear quote inert, line_fillFrame clear.source, fillLine, text_unquoted]
  rfl

end Quote

/-- The indentation of a line does not matter for where it lies. -/
theorem ClearLine.indented (clear : ClearLine stencil number line) (indent : Int) :
    ClearLine stencil number { line with indent } where
  lies := clear.lies.of_le (Nat.le_refl _) rfl clear.lies.shows
  within := clear.within
  own := clear.own
  head := clear.head

/-- The lines of a quotation, seen from inside of it. -/
theorem quotation_fill (proper : stencil.Proper) (inert : Inert words)
    (clear : ClearFrame stencil frame) (clearInner : ClearFrame stencil inner)
    (stop most : Nat) (lastEmpty : Bool) :
    ClearFrame stencil (frame.quotation stop most number lastEmpty inner).1 ∧
      (fillFrame words stencil frame).quotation stop most number lastEmpty
          (fillFrame words stencil inner) =
        (fillFrame words stencil (frame.quotation stop most number lastEmpty inner).1,
          (frame.quotation stop most number lastEmpty inner).2) := by
  induction most generalizing number lastEmpty inner with
  | zero => exact ⟨clearInner, rfl⟩
  | succ most inductionHypothesis =>
      have kept (indent : Int) : ClearLine stencil number { frame.line number with indent } :=
        (clear.lines number).indented indent
      have line := line_fillFrame clear.source words number
      rw [Frame.quotation, Frame.quotation, isEmpty_fill inert clear,
        first?_fill proper inert clear, isOutdented_fill clear, endsContinuation_fill proper inert clear]
      dsimp only
      split
      · exact ⟨clearInner, rfl⟩
      · split
        · next quotes =>
            have quote : frame.first? number = some '>' :=
              beq_iff_eq.mp (Bool.and_eq_true_iff.mp quotes).1
            have quoted := clearLine_unquoted proper clear quote
            rw [← fillLine_unquoted proper clear quote inert, ← fillFrame_setLine,
              isEmpty_fillLine inert]
            exact inductionHypothesis (clearInner.setLine quoted) _
        · split
          · exact ⟨clearInner, rfl⟩
          · rw [line, blockIndent_fillFrame]
            split
            · have limited : ClearFrame stencil { inner with limit := number } :=
                ⟨clearInner.source, clearInner.lines⟩
              split
              · exact ⟨limited, rfl⟩
              · refine ⟨limited.setLine (kept _), ?_⟩
                rw [fillFrame_setLine]
                rfl
            · have continued :=
                @inductionHypothesis _ (number + 1) (clearInner.setLine (kept (-1))) lastEmpty
              rw [fillFrame_setLine] at continued
              exact continued

/-! ## List items -/

/-- The mark of a list item is margin in front of the text of its line. -/
structure MarkerLies (stencil : Stencil) (line : Line) (marker : Frame.Marker) : Prop where
  ahead : line.text < marker.stop
  within : marker.stop ≤ line.stop
  bare : ¬ stencil.IsSlot marker.stop
  margin : ∀ place, line.text ≤ place → place < marker.stop → stencil.HasMargin place

section Item

variable (proper : stencil.Proper) (clear : ClearFrame stencil frame) {marker : Frame.Marker}
include proper clear

theorem markerLies_of_bullet? (found : frame.bullet? number = some marker) :
    MarkerLies stencil (frame.line number) marker := by
  unfold Frame.bullet? at found
  dsimp only at found
  split at found
  · next c first =>
      split at found
      · next marks =>
          cases found
          have held := letter_of_first? proper clear first
          have mark := (Bool.and_eq_true_iff.mp marks).1
          have other : c ≠ '(' := by
            rintro rfl
            cases mark
          have notBreak : c ≠ '\n' := by
            rintro rfl
            cases mark
          have margin : isMargin c = true := by
            simp only [Bool.or_eq_true, decide_eq_true_eq] at mark
            rcases mark with (rfl | rfl) | rfl <;> decide
          refine ⟨Nat.lt_succ_self _, (clear.lines number).text_lt held notBreak,
            proper.not_isSlot_succ held other, fun place later before => ?_⟩
          exact ⟨c, (by dsimp only at before; omega : place = (frame.line number).text) ▸ held, margin⟩
      · cases found
  · cases found

theorem markerLies_of_ordinal? (found : frame.ordinal? number = some marker) :
    MarkerLies stencil (frame.line number) marker := by
  have bareText := (clear.lines number).not_isSlot_text proper
  have bare : stencil.BareBetween (frame.line number).text
      (stencil.drawn.pass isAsciiDigit (frame.line number).stop (frame.line number).text + 1) :=
    proper.bare_of_closed (by decide) bareText
  have ahead : (frame.line number).text ≤
      stencil.drawn.pass isAsciiDigit (frame.line number).stop (frame.line number).text :=
    Source.le_pass _ _
  unfold Frame.ordinal? at found
  dsimp only at found
  rw [clear.source] at found
  split at found
  · next c shown =>
      split at found
      · next marks =>
          cases found
          simp only [Bool.and_eq_true, decide_eq_true_eq, Bool.or_eq_true] at marks
          rcases marks with ⟨⟨⟨_, short⟩, mark⟩, _⟩
          have held := letter_of_bare (bare _ ahead (Nat.lt_succ_self _)) shown
          have other : c ≠ '(' := by
            rintro rfl
            rcases mark with same | same <;> cases same
          have margin : isMargin c = true := by
            rcases mark with rfl | rfl <;> decide
          refine ⟨Nat.lt_succ_of_le ahead, short, proper.not_isSlot_succ held other,
            fun place later before => ?_⟩
          rcases Nat.eq_or_lt_of_le (Nat.le_of_lt_succ before) with rfl | digit
          · exact ⟨c, held, margin⟩
          · rcases Source.test_of_lt_pass later digit with ⟨d, drawn, isDigit⟩
            refine ⟨d, letter_of_bare (bare place later (Nat.lt_succ_of_lt digit)) drawn, ?_⟩
            have notParenthesis : d ≠ '(' := by
              rintro rfl
              cases isDigit
            have notBracket : d ≠ ']' := by
              rintro rfl
              cases isDigit
            simp [isMargin, notParenthesis, notBracket]
      · cases found
  · cases found

theorem markerLies_of_list? (found : frame.list? number = some marker) :
    MarkerLies stencil (frame.line number) marker := by
  unfold Frame.list? at found
  dsimp only at found
  split at found
  · cases found
  · split at found
    · cases found
    · unfold Frame.marker? at found
      split at found
      · next ordinal =>
          cases found
          exact markerLies_of_ordinal? proper clear ordinal
      · exact markerLies_of_bullet? proper clear found

theorem markerLies_of_nextMarker? {previous : Frame.Marker}
    (found : frame.nextMarker? previous number = some marker) :
    MarkerLies stencil (frame.line number) marker := by
  unfold Frame.nextMarker? at found
  dsimp only at found
  split at found
  · cases found
  · have kept := (Option.filter_eq_some_iff.mp found).1
    split at kept
    · exact markerLies_of_ordinal? proper clear kept
    · exact markerLies_of_bullet? proper clear kept

end Item

theorem nextMarker?_fill (proper : stencil.Proper) (inert : Inert words)
    (clear : ClearFrame stencil frame) (marker : Frame.Marker) :
    (fillFrame words stencil frame).nextMarker? (fillMarker words stencil marker) number =
      (frame.nextMarker? marker number).map (fillMarker words stencil) := by
  unfold Frame.nextMarker?
  dsimp only
  rw [isOutdented_fill clear, isCode_fill clear, endsItem_fill proper inert clear,
    ordinal?_fill proper inert clear, bullet?_fill proper inert clear]
  rw [← apply_ite (Option.map (fillMarker words stencil)), Option.filter_map,
    apply_ite (Option.map _)]
  rfl

theorem MarkerLies.place_eq {marker : Frame.Marker} (lies : MarkerLies stencil line marker) :
    place words stencil marker.stop =
      place words stencil line.text + (marker.stop - line.text) := by
  have far : line.text + (marker.stop - line.text) = marker.stop :=
    Nat.add_sub_cancel' lies.ahead.le
  have bare : stencil.BareBetween line.text (line.text + (marker.stop - line.text)) :=
    fun place ahead before => (lies.margin place ahead (far ▸ before)).not_isSlot
  exact (congrArg _ far.symm).trans bare.place_add

/-- Where indentation is passed behind the mark of a list item, and how far. -/
def itemIndent (frame : Frame) (number : Nat) (marker : Frame.Marker) : Nat × Int :=
  passIndent frame.source (frame.line number).column ((frame.line number).stop - marker.stop)
    marker.stop
    ((frame.line number).indent + ((marker.stop - (frame.line number).text : Nat) : Int))

/-- The line of the mark of a list item, seen from inside of the item. -/
def itemLine (frame : Frame) (number : Nat) (marker : Frame.Marker) : Line :=
  { frame.line number with
    shift := (itemIndent frame number marker).1 - (frame.line number).start
    indent := (itemIndent frame number marker).2 }

theorem le_itemIndent (frame : Frame) (number : Nat) (marker : Frame.Marker) :
    marker.stop ≤ (itemIndent frame number marker).1 :=
  (passIndent_spec _ _ _ _ _).1

theorem text_itemLine {marker : Frame.Marker} (ahead : (frame.line number).start ≤ marker.stop) :
    (itemLine frame number marker).text = (itemIndent frame number marker).1 :=
  Nat.add_sub_cancel' (ahead.trans (le_itemIndent frame number marker))

section Item

variable (proper : stencil.Proper) (clear : ClearFrame stencil frame) {marker : Frame.Marker}
  (lies : MarkerLies stencil (frame.line number) marker)
include clear lies

theorem clearLine_itemLine : ClearLine stencil number (itemLine frame number marker) := by
  have ahead : (frame.line number).start ≤ marker.stop :=
    (Nat.le_add_right _ _).trans lies.ahead.le
  have nonempty : (frame.line number).text < (frame.line number).stop :=
    lies.ahead.trans_le lies.within
  have text := text_itemLine ahead
  have indent := passIndent_margin stencil (frame.line number).column
    ((frame.line number).stop - marker.stop) marker.stop
    ((frame.line number).indent + ((marker.stop - (frame.line number).text : Nat) : Int))
  rw [itemIndent, clear.source] at text
  rw [← text, Nat.add_sub_cancel' lies.within] at indent
  refine (clear.lines number).advance nonempty
    ((clear.lines number).lies.of_le (Nat.le_refl _) rfl fun short => ?_) (Nat.le_refl _) rfl
    indent.1 fun place later before => ?_
  · rw [text] at short ⊢
    exact Line.Lies.shows_of_passIndent (clear.lines number).lies.le_size short
  · rcases Nat.lt_or_ge place marker.stop with short | beyond
    · exact lies.margin place later short
    · exact indent.2 place beyond before

variable (inert : Inert words)
include proper inert

theorem itemIndent_fill :
    itemIndent (fillFrame words stencil frame) number (fillMarker words stencil marker) =
      (place words stencil (itemIndent frame number marker).1,
        (itemIndent frame number marker).2) := by
  have initial : place words stencil marker.stop - place words stencil (frame.line number).text =
      marker.stop - (frame.line number).text := by
    rw [lies.place_eq, Nat.add_sub_cancel_left]
  unfold itemIndent fillMarker
  rw [text_fill inert clear, line_fillFrame clear.source, source_fillFrame, clear.source,
    stop_fillLine, initial]
  exact passIndent_filled proper inert lies.within lies.bare _ _

theorem itemLine_fill :
    itemLine (fillFrame words stencil frame) number (fillMarker words stencil marker) =
      fillLine words stencil (itemLine frame number marker) := by
  have ahead : (frame.line number).start ≤ marker.stop :=
    (Nat.le_add_right _ _).trans lies.ahead.le
  rw [itemLine, itemIndent_fill proper clear lies inert, line_fillFrame clear.source, fillLine,
    fillLine, text_itemLine ahead]
  rfl

end Item

/-- The lines of a list item, seen from inside of it. -/
theorem insideItem_fill (proper : stencil.Proper) (inert : Inert words)
    (clear : ClearFrame stencil frame) {marker : Frame.Marker}
    (lies : MarkerLies stencil (frame.line number) marker) :
    ClearFrame stencil (frame.insideItem number marker).1 ∧
      (fillFrame words stencil frame).insideItem number (fillMarker words stencil marker) =
        (fillFrame words stencil (frame.insideItem number marker).1,
          (frame.insideItem number marker).2) := by
  have mono : StrictMono (place words stencil) := place_strictMono inert
  have clearItem : ClearFrame stencil (frame.setLine number (itemLine frame number marker)) :=
    clear.setLine (clearLine_itemLine clear lies)
  have isBare : decide (place words stencil (frame.line number).stop ≤
        place words stencil (itemIndent frame number marker).1) =
      decide ((frame.line number).stop ≤ (itemIndent frame number marker).1) :=
    decide_eq_decide.mpr mono.le_iff_le
  have initial : (fillMarker words stencil marker).stop -
        ((fillFrame words stencil frame).line number).text =
      marker.stop - (frame.line number).text := by
    rw [text_fill inert clear, fillMarker, lies.place_eq, Nat.add_sub_cancel_left]
  -- Inside of an item is its line, and the column that its content begins at.
  have inside (frame : Frame) (marker : Frame.Marker) :
      frame.insideItem number marker =
        (let bare := decide ((frame.line number).stop ≤ (itemIndent frame number marker).1)
        let column := (frame.line number).indent +
          ((marker.stop - (frame.line number).text : Nat) : Int)
        let width := if bare then 1 else (itemIndent frame number marker).2 - column
        ({ frame.setLine number (itemLine frame number marker) with
            listIndent := frame.blockIndent
            blockIndent := column + if 4 < width then 1 else width }, bare)) := rfl
  refine ⟨⟨clearItem.source, clearItem.lines⟩, ?_⟩
  rw [inside, inside, itemLine_fill proper clear lies inert, ← fillFrame_setLine,
    itemIndent_fill proper clear lies inert, initial, line_fillFrame clear.source, stop_fillLine,
    isBare]
  rfl

end Stencil
end Markup
end Crosslink

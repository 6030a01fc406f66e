import Crosslink.Proofs.Markup.Stencil.Line

namespace Crosslink
namespace Markup
namespace Stencil

/-!
What a line of a filled text begins.  The marks of containers, rules, headings and fences stand
where they stand in the outline, and what closes a line is looked at through blanks alone, so each
line begins what it begins in the outline.  A word may end in the mark of a heading, but then no
blank stands before that mark.
-/

variable {words : Nat → Text} {stencil : Stencil} {frame : Frame} {number : Nat}

/-- A mark that no word holds stands in a filled text if it stands in the stencil. -/
theorem mem_text_iff (inert : Inert words) {mark : Char} (marked : isInert mark = false)
    (cells : Stencil) : mark ∈ text words cells ↔ Cell.letter mark ∈ cells := by
  rw [text, List.mem_flatMap]
  constructor
  · rintro ⟨cell, member, held⟩
    cases cell with
    | letter c => exact List.mem_singleton.mp held ▸ member
    | slot number => cases marked.symm.trans ((inert number).2 mark held)
  · exact fun member => ⟨_, member, List.mem_singleton.mpr rfl⟩

theorem mem_outline_iff {mark : Char} (marked : isInert mark = false) (cells : Stencil) :
    mark ∈ cells.outline ↔ Cell.letter mark ∈ cells := by
  rw [outline, List.mem_map]
  constructor
  · rintro ⟨cell, member, same⟩
    cases cell with
    | letter c => exact same ▸ member
    | slot number =>
        have same : 'x' = mark := same
        cases marked.symm.trans (same ▸ isInert_x)
  · exact fun member => ⟨_, member, rfl⟩

theorem between_eq_nil {source : Source} {start stop : Nat} (ordered : stop ≤ start) :
    source.between start stop = [] := by
  rw [Source.between_eq, List.drop_eq_nil_iff, List.length_take]
  exact (Nat.min_le_left _ _).trans ordered

theorem contains_filled (inert : Inert words) {mark : Char} (marked : isInert mark = false)
    (stencil : Stencil) (start stop : Nat) :
    ((filled words stencil).between (place words stencil start)
        (place words stencil stop)).contains mark =
      (stencil.drawn.between start stop).contains mark := by
  have mono : StrictMono (place words stencil) := place_strictMono inert
  rcases Nat.le_total start stop with ordered | ordered
  · rw [between_filled ordered, between_drawn, Bool.eq_iff_iff, List.contains_iff_mem,
      List.contains_iff_mem, mem_text_iff inert marked, mem_outline_iff marked]
  · rw [between_eq_nil ordered, between_eq_nil (mono.monotone ordered)]

/-- What is shorter than a label and a slot is as long as in the outline. -/
theorem ClearLine.place_lt_iff {line : Line} (clear : ClearLine stencil number line)
    (proper : stencil.Proper) (inert : Inert words) {length : Nat} (short : length ≤ 3) :
    place words stencil line.stop < place words stencil line.text + length ↔
      line.stop < line.text + length := by
  have mono : StrictMono (place words stencil) := place_strictMono inert
  have within := clear.within
  by_cases bare : stencil.BareBetween line.text line.stop
  · have same : place words stencil line.stop =
        place words stencil line.text + (line.stop - line.text) := by
      have far : line.text + (line.stop - line.text) = line.stop := Nat.add_sub_cancel' within
      rw [← far] at bare
      exact (congrArg _ far.symm).trans bare.place_add
    omega
  · simp only [BareBetween, not_forall, not_not] at bare
    rcases bare with ⟨slot, ahead, before, isSlot⟩
    have far := clear.text_le proper isSlot ((Nat.le_add_right _ _).trans ahead) before
    have longer := mono.add_le_nat (line.stop - line.text) line.text
    rw [Nat.sub_add_cancel within] at longer
    omega

/-- A run of marks is as long as in the outline. -/
theorem pass_marks (proper : stencil.Proper) (inert : Inert words) {mark : Char}
    (other : mark ≠ '(') {start : Nat} (bare : ¬ stencil.IsSlot start) (stop : Nat) :
    (filled words stencil).pass (· == mark) (place words stencil stop) (place words stencil start) =
        place words stencil (stencil.drawn.pass (· == mark) stop start) ∧
      place words stencil (stencil.drawn.pass (· == mark) stop start) =
        place words stencil start + (stencil.drawn.pass (· == mark) stop start - start) := by
  have closed : ((· == mark) : Char → Bool) '(' = false := beq_eq_false_iff_ne.mpr other.symm
  exact ⟨proper.pass_filled inert closed bare stop, proper.place_pass closed bare stop⟩

/-- A scan back over the characters of the outline comes to the place of the position, unless it
comes to a word that it goes on into. -/
theorem passBack_filled (inert : Inert words) {test : Char → Bool} {floor start : Nat}
    (blunt : test 'x' = false) (ordered : floor ≤ start) (within : start ≤ stencil.length)
    (edge : floor < stencil.drawn.passBack test floor start →
      stencil.IsSlot (stencil.drawn.passBack test floor start - 1) →
        ∀ c, isInert c = true → test c = false) :
    (filled words stencil).passBack test (place words stencil floor) (place words stencil start) =
      place words stencil (stencil.drawn.passBack test floor start) := by
  have mono : StrictMono (place words stencil) := place_strictMono inert
  have reach : floor ≤ stencil.drawn.passBack test floor start := Source.le_passBack ordered
  have back : stencil.drawn.passBack test floor start ≤ start := Source.passBack_le floor start
  refine Source.passBack_eq_of (mono.monotone reach) (mono.monotone back) ?_ ?_
  · intro spot ahead before
    rcases exists_cell ahead before back with ⟨position, first, second, third, fourth⟩
    rcases Source.test_of_passBack_le first second with ⟨c, shown, passes⟩
    rcases exists_of_cell inert third fourth (second.trans_le within) with
      ⟨own, held, _, stands⟩ | ⟨number, own, held, _, _⟩
    · cases (drawn_of_letter held).symm.trans shown
      exact ⟨c, (List.getElem?_toArray ..).trans stands, passes⟩
    · cases (drawn_of_slot held).symm.trans shown
      cases blunt.symm.trans passes
  · intro short c stands
    have short : floor < stencil.drawn.passBack test floor start := mono.lt_iff_lt.mp short
    obtain ⟨last, same⟩ : ∃ last, stencil.drawn.passBack test floor start = last + 1 :=
      ⟨_, (Nat.sub_add_cancel (by omega)).symm⟩
    have fails : ∀ d, stencil.drawn[last]? = some d → test d = false := by
      intro d shown
      refine Source.test_passBack_eq_false short ?_
      rw [same]
      exact shown
    rw [same, Nat.add_sub_cancel] at edge
    have nonempty : place words stencil last < place words stencil (last + 1) :=
      place_lt_succ inert last
    rw [same] at stands
    rcases exists_of_cell inert (show place words stencil last ≤ place words stencil (last + 1) - 1 by
        omega) (by omega) (show last < stencil.length by omega) with
      ⟨own, held, _, shown⟩ | ⟨number, own, held, shown, plain⟩
    · rw [filled, List.getElem?_toArray, shown] at stands
      cases stands
      exact fails c (drawn_of_letter held)
    · rw [filled, List.getElem?_toArray, shown] at stands
      cases stands
      exact edge (Nat.lt_of_lt_of_eq short same) ⟨number, held⟩ c plain

/-! ## Frames -/

/-- The frame of the filled text that is a frame of the outline. -/
def fillFrame (words : Nat → Text) (stencil : Stencil) (frame : Frame) : Frame where
  source := filled words stencil
  lines := frame.lines.map (fillLine words stencil)
  limit := frame.limit
  blockIndent := frame.blockIndent
  listIndent := frame.listIndent

/-- The frame shows the outline, with nothing but margin in front of the texts of its lines. -/
structure ClearFrame (stencil : Stencil) (frame : Frame) : Prop where
  source : frame.source = stencil.drawn
  lines : ∀ number, ClearLine stencil number (frame.line number)

@[simp] theorem source_fillFrame (words : Nat → Text) (stencil : Stencil) (frame : Frame) :
    (fillFrame words stencil frame).source = filled words stencil :=
  rfl

@[simp] theorem blockIndent_fillFrame (words : Nat → Text) (stencil : Stencil) (frame : Frame) :
    (fillFrame words stencil frame).blockIndent = frame.blockIndent :=
  rfl

theorem line_fillFrame (source : frame.source = stencil.drawn) (words : Nat → Text)
    (number : Nat) :
    (fillFrame words stencil frame).line number = fillLine words stencil (frame.line number) := by
  unfold Frame.line fillFrame
  dsimp only
  rw [Array.getElem?_map, source]
  cases frame.lines[number]? with
  | some line => rfl
  | none =>
      rw [Option.map_none, Option.getD_none, Option.getD_none, fillLine, size_filled, size_drawn,
        Line.text, Nat.add_zero, Nat.sub_self]

/-- In front of the marks that close a heading, if a blank stands in front of them. -/
def closing (source : Source) (behind last : Nat) : Nat :=
  let marks := source.passBack (· == '#') behind last
  if behind < marks && (source[marks - 1]?).any isSpace then marks else last

/-- Where the content of a heading begins and ends. -/
def headingRange? (frame : Frame) (number : Nat) : Option (Nat × Nat) :=
  let line := frame.line number
  let source := frame.source
  let behind := source.pass (· == '#') line.stop line.text
  let level := behind - line.text
  if frame.isCode number || level = 0 || 6 < level then none
  else if behind < line.stop && !(source[behind]?).any isSpace then none
  else
    some (behind, closing source behind (source.passBack isSpace behind line.stop))

theorem heading?_eq (frame : Frame) (number : Nat) :
    frame.heading? number = (headingRange? frame number).map fun range =>
      (frame.source.between range.1 range.2).trim := by
  unfold Frame.heading? headingRange?
  dsimp only
  rw [apply_ite (Option.map _), apply_ite (Option.map _)]
  rfl

/-- The content of a heading stands on its line, with marks and blanks around it. -/
theorem headingRange?_bounds (clear : ClearFrame stencil frame) {range : Nat × Nat}
    (found : headingRange? frame number = some range) :
    (frame.line number).text ≤ range.1 ∧ range.1 ≤ range.2 ∧
      range.2 ≤ (frame.line number).stop ∧
      (∀ position, (frame.line number).text ≤ position → position < range.1 →
        stencil.drawn[position]? = some '#') ∧
      ∀ position, range.2 ≤ position → position < (frame.line number).stop →
        ∃ c, stencil.drawn[position]? = some c ∧ (isSpace c = true ∨ c = '#') := by
  unfold headingRange? closing at found
  dsimp only at found
  split at found
  · cases found
  · split at found
    · cases found
    · cases found
      rw [clear.source]
      have within := (clear.lines number).within
      have ahead : (frame.line number).text ≤
          stencil.drawn.pass (· == '#') (frame.line number).stop (frame.line number).text :=
        Source.le_pass _ _
      have run : ∀ position, (frame.line number).text ≤ position → position <
          stencil.drawn.pass (· == '#') (frame.line number).stop (frame.line number).text →
            stencil.drawn[position]? = some '#' := by
        intro position later before
        rcases Source.test_of_lt_pass later before with ⟨c, shown, passes⟩
        exact beq_iff_eq.mp passes ▸ shown
      have behind : stencil.drawn.pass (· == '#') (frame.line number).stop
          (frame.line number).text ≤ (frame.line number).stop :=
        (Source.pass_le _ _).trans_eq (Nat.max_eq_right within)
      generalize stencil.drawn.pass (· == '#') (frame.line number).stop
        (frame.line number).text = start at ahead run behind ⊢
      have blanks : ∀ position,
          stencil.drawn.passBack isSpace start (frame.line number).stop ≤ position →
            position < (frame.line number).stop →
              ∃ c, stencil.drawn[position]? = some c ∧ (isSpace c = true ∨ c = '#') := by
        intro position later before
        rcases Source.test_of_passBack_le later before with ⟨c, shown, passes⟩
        exact ⟨c, shown, Or.inl passes⟩
      have lower : start ≤ stencil.drawn.passBack isSpace start (frame.line number).stop :=
        Source.le_passBack behind
      have upper : stencil.drawn.passBack isSpace start (frame.line number).stop ≤
          (frame.line number).stop := Source.passBack_le _ _
      generalize stencil.drawn.passBack isSpace start (frame.line number).stop = last
        at blanks lower upper ⊢
      refine ⟨ahead, ?_, ?_, run, ?_⟩
      · dsimp only
        split
        · exact Source.le_passBack lower
        · exact lower
      · dsimp only
        split
        · exact (Source.passBack_le _ _).trans upper
        · exact upper
      · dsimp only
        split
        · intro position later before
          rcases Nat.lt_or_ge position last with marked | blank
          · rcases Source.test_of_passBack_le later marked with ⟨c, shown, passes⟩
            exact ⟨c, shown, Or.inr (beq_iff_eq.mp passes)⟩
          · exact blanks position blank before
        · exact blanks

/-- The mark of a list item of the filled text. -/
def fillMarker (words : Nat → Text) (stencil : Stencil) (marker : Frame.Marker) : Frame.Marker :=
  { marker with stop := place words stencil marker.stop }

theorem letter_of_first? (proper : stencil.Proper) (clear : ClearFrame stencil frame) {c : Char}
    (first : frame.first? number = some c) :
    stencil[(frame.line number).text]? = some (.letter c) := by
  rw [Frame.first?, clear.source] at first
  exact letter_of_bare ((clear.lines number).not_isSlot_text proper) first

section Line

variable (proper : stencil.Proper) (inert : Inert words) (clear : ClearFrame stencil frame)
include clear

theorem isCode_fill : (fillFrame words stencil frame).isCode number = frame.isCode number := by
  rw [Frame.isCode, line_fillFrame clear.source]
  rfl

theorem isOutdented_fill :
    (fillFrame words stencil frame).isOutdented number = frame.isOutdented number := by
  rw [Frame.isOutdented, line_fillFrame clear.source]
  rfl

theorem isForced_fill : (fillFrame words stencil frame).isForced number = frame.isForced number := by
  rw [Frame.isForced, isCode_fill clear, line_fillFrame clear.source]
  rfl

include inert

theorem isEmpty_fill :
    ((fillFrame words stencil frame).line number).isEmpty = (frame.line number).isEmpty := by
  rw [line_fillFrame clear.source, isEmpty_fillLine inert]

theorem text_fill : ((fillFrame words stencil frame).line number).text =
    place words stencil (frame.line number).text := by
  rw [line_fillFrame clear.source, text_fillLine inert]

theorem endsMarker_fill (position : Nat) (bare : ¬ stencil.IsSlot position) :
    (fillFrame words stencil frame).endsMarker ((fillFrame words stencil frame).line number)
        (place words stencil position) =
      frame.endsMarker (frame.line number) position := by
  have mono : StrictMono (place words stencil) := place_strictMono inert
  unfold Frame.endsMarker
  rw [line_fillFrame clear.source, clear.source, source_fillFrame, stop_fillLine,
    getElem?_filled bare, decide_eq_decide.mpr mono.le_iff_le]

theorem passEmpty_fill (most : Nat) :
    (fillFrame words stencil frame).passEmpty most number = frame.passEmpty most number := by
  induction most generalizing number with
  | zero => rfl
  | succ most inductionHypothesis =>
      rw [Frame.passEmpty, Frame.passEmpty, isEmpty_fill inert clear, inductionHypothesis]
      rfl

theorem codeEnd_fill (stop most last : Nat) :
    (fillFrame words stencil frame).codeEnd stop most number last =
      frame.codeEnd stop most number last := by
  induction most generalizing number last with
  | zero => rfl
  | succ most inductionHypothesis =>
      rw [Frame.codeEnd, Frame.codeEnd, isEmpty_fill inert clear, isCode_fill clear,
        inductionHypothesis, inductionHypothesis]

include proper

theorem first?_fill : (fillFrame words stencil frame).first? number = frame.first? number := by
  rw [Frame.first?, Frame.first?, text_fill inert clear, clear.source]
  exact getElem?_filled ((clear.lines number).not_isSlot_text proper)

theorem fence?_fill : (fillFrame words stencil frame).fence? number = frame.fence? number := by
  have mono : StrictMono (place words stencil) := place_strictMono inert
  have bare := (clear.lines number).not_isSlot_text proper
  unfold Frame.fence?
  dsimp only
  rw [first?_fill proper inert clear, isCode_fill clear, text_fill inert clear,
    line_fillFrame clear.source, clear.source]
  cases frame.first? number with
  | none => rfl
  | some mark =>
      have short : decide ((fillLine words stencil (frame.line number)).stop <
          place words stencil (frame.line number).text + 3) =
            decide ((frame.line number).stop < (frame.line number).text + 3) :=
        decide_eq_decide.mpr ((clear.lines number).place_lt_iff proper inert (Nat.le_refl 3))
      dsimp only
      rw [short]
      split
      · rfl
      · split
        · next fences =>
            simp only [Bool.or_eq_true, decide_eq_true_eq] at fences
            have other : mark ≠ '(' := by
              rintro rfl
              rcases fences with same | same <;> cases same
            have run := pass_marks proper inert other bare stencil.length
            have ahead : (frame.line number).text ≤
                stencil.drawn.pass (· == mark) stencil.length (frame.line number).text :=
              Source.le_pass _ _
            have length : place words stencil (stencil.drawn.pass (· == mark) stencil.length
                  (frame.line number).text) - place words stencil (frame.line number).text =
                stencil.drawn.pass (· == mark) stencil.length (frame.line number).text -
                  (frame.line number).text := by
              omega
            rw [source_fillFrame, stop_fillLine, size_filled, size_drawn, run.1, length,
              contains_filled inert (by decide)]
        · rfl

omit proper in
/-- Spaces are passed as in the outline. -/
theorem passSpaces_fill (position : Nat) :
    (fillFrame words stencil frame).source.pass isSpace (fillFrame words stencil frame).source.size
        (place words stencil position) =
      place words stencil (frame.source.pass isSpace frame.source.size position) := by
  rw [source_fillFrame, clear.source, size_filled, size_drawn,
    pass_filled_of_even inert even_isSpace]

/-- A run of marks at the text of a line is passed as in the outline. -/
theorem passMarks_fill {mark : Char} (other : mark ≠ '(') :
    (fillFrame words stencil frame).source.pass (· == mark)
        (fillFrame words stencil frame).source.size (place words stencil (frame.line number).text) =
      place words stencil
        (frame.source.pass (· == mark) frame.source.size (frame.line number).text) := by
  have bare := (clear.lines number).not_isSlot_text proper
  rw [source_fillFrame, clear.source, size_filled, size_drawn]
  exact (pass_marks proper inert other bare stencil.length).1

theorem closesFence_fill {mark : Char} (other : mark ≠ '(') (length : Nat) :
    (fillFrame words stencil frame).closesFence mark length number =
      frame.closesFence mark length number := by
  have mono : StrictMono (place words stencil) := place_strictMono inert
  have bare := (clear.lines number).not_isSlot_text proper
  have run := (pass_marks proper inert other bare frame.source.size).2
  have ahead : (frame.line number).text ≤
      frame.source.pass (· == mark) frame.source.size (frame.line number).text :=
    Source.le_pass _ _
  rw [← clear.source] at run
  have long : place words stencil (frame.line number).text + length ≤ place words stencil
        (frame.source.pass (· == mark) frame.source.size (frame.line number).text) ↔
      (frame.line number).text + length ≤
        frame.source.pass (· == mark) frame.source.size (frame.line number).text := by
    omega
  unfold Frame.closesFence
  dsimp only
  rw [isCode_fill clear, text_fill inert clear, passMarks_fill proper inert clear other,
    passSpaces_fill inert clear, line_fillFrame clear.source, stop_fillLine]
  simp only [long, mono.le_iff_le]

/-- The text of a line of the filled text is that of the outline, or a parenthesis stands in
both. -/
theorem lineText_fill : (fillFrame words stencil frame).lineText number = frame.lineText number ∨
    '(' ∈ (fillFrame words stencil frame).lineText number ∧ '(' ∈ frame.lineText number := by
  have clearLine := clear.lines number
  unfold Frame.lineText
  rw [text_fill inert clear, line_fillFrame clear.source, clear.source, source_fillFrame,
    stop_fillLine]
  by_cases bare : stencil.BareBetween (frame.line number).text (frame.line number).stop
  · exact Or.inl (bare.between_filled clearLine.within)
  · simp only [BareBetween, not_forall, not_not] at bare
    rcases bare with ⟨slot, ahead, before, own, held⟩
    have far := clearLine.text_le proper ⟨own, held⟩ ((Nat.le_add_right _ _).trans ahead) before
    rcases proper.before slot own held with ⟨label, rfl, _, parenthesis⟩
    have member : Cell.letter '(' ∈
        stencil.cut (frame.line number).text (frame.line number).stop :=
      mem_cut_iff.mpr ⟨label + 1, by omega, by omega, parenthesis⟩
    rw [between_filled clearLine.within, between_drawn, mem_text_iff inert (by decide),
      mem_outline_iff (by decide)]
    exact Or.inr ⟨member, member⟩

theorem isRule_fill : (fillFrame words stencil frame).isRule number = frame.isRule number := by
  unfold Frame.isRule
  dsimp only
  rw [first?_fill proper inert clear, isCode_fill clear]
  cases frame.first? number with
  | none => rfl
  | some mark =>
      dsimp only
      have texts : (fillFrame words stencil frame).lineText number = frame.lineText number ∨
          '(' ∈ (fillFrame words stencil frame).lineText number ∧ '(' ∈ frame.lineText number :=
        lineText_fill proper inert clear
      rcases texts with same | ⟨filled, drawn⟩
      · rw [same]
      · by_cases marks : (decide (mark = '*') || decide (mark = '-') || decide (mark = '_')) = true
        · have fails : ((fun c => c == mark || isSpace c) : Char → Bool) '(' = false := by
            simp only [Bool.or_eq_true, decide_eq_true_eq] at marks
            rcases marks with (rfl | rfl) | rfl <;> decide
          have mixed {text : Text} (held : '(' ∈ text) :
              text.all (fun c => c == mark || isSpace c) = false :=
            List.all_eq_false.mpr ⟨'(', held, Bool.eq_false_iff.mp fails⟩
          rw [mixed filled, mixed drawn, Bool.and_false, Bool.false_and, Bool.false_and]
        · rw [Bool.not_eq_true] at marks
          rw [marks, Bool.and_false, Bool.false_and, Bool.false_and, Bool.false_and, Bool.false_and]

theorem isQuote_fill : (fillFrame words stencil frame).isQuote number = frame.isQuote number := by
  rw [Frame.isQuote, isCode_fill clear, first?_fill proper inert clear]
  rfl

theorem bullet?_fill : (fillFrame words stencil frame).bullet? number =
    (frame.bullet? number).map (fillMarker words stencil) := by
  unfold Frame.bullet?
  dsimp only
  rw [first?_fill proper inert clear]
  cases first : frame.first? number with
  | none => rfl
  | some c =>
      have held := letter_of_first? proper clear first
      have next : place words stencil ((frame.line number).text + 1) =
          place words stencil (frame.line number).text + 1 :=
        place_succ_of_letter held
      dsimp only
      rw [text_fill inert clear, ← next]
      by_cases mark : (decide (c = '*') || decide (c = '-') || decide (c = '+')) = true
      · have other : c ≠ '(' := by
          rintro rfl
          cases mark
        rw [endsMarker_fill inert clear _ (proper.not_isSlot_succ held other), apply_ite (Option.map _)]
        rfl
      · rw [Bool.not_eq_true] at mark
        rw [mark, Bool.false_and, Bool.false_and]
        rfl

theorem ordinal?_fill : (fillFrame words stencil frame).ordinal? number =
    (frame.ordinal? number).map (fillMarker words stencil) := by
  have mono : StrictMono (place words stencil) := place_strictMono inert
  have closed : isAsciiDigit '(' = false := by decide
  have bareText := (clear.lines number).not_isSlot_text proper
  have digits := proper.pass_filled inert closed bareText (frame.line number).stop
  have length : place words stencil
        (stencil.drawn.pass isAsciiDigit (frame.line number).stop (frame.line number).text) = _ :=
    proper.place_pass closed bareText (frame.line number).stop
  have bare : stencil.BareBetween (frame.line number).text
      (stencil.drawn.pass isAsciiDigit (frame.line number).stop (frame.line number).text + 1) :=
    proper.bare_of_closed closed bareText
  have ahead : (frame.line number).text ≤
      stencil.drawn.pass isAsciiDigit (frame.line number).stop (frame.line number).text :=
    Source.le_pass _ _
  unfold Frame.ordinal?
  dsimp only
  rw [source_fillFrame, clear.source, text_fill inert clear]
  have stop : ((fillFrame words stencil frame).line number).stop =
      place words stencil (frame.line number).stop := by
    rw [line_fillFrame clear.source, stop_fillLine]
  rw [stop, digits]
  revert digits length bare ahead
  generalize stencil.drawn.pass isAsciiDigit (frame.line number).stop (frame.line number).text =
    behind
  intro digits length bare ahead
  have here : ¬ stencil.IsSlot behind := bare behind ahead (Nat.lt_succ_self behind)
  rw [getElem?_filled here]
  cases shown : stencil.drawn[behind]? with
  | none => rfl
  | some c =>
      have held := letter_of_bare here shown
      have next : place words stencil (behind + 1) = place words stencil behind + 1 :=
        place_succ_of_letter held
      have count : place words stencil behind - place words stencil (frame.line number).text =
          behind - (frame.line number).text := by
        omega
      have reads : (filled words stencil).between (place words stencil (frame.line number).text)
            (place words stencil behind) =
          stencil.drawn.between (frame.line number).text behind :=
        BareBetween.between_filled
          (fun place later short => bare place later (Nat.lt_succ_of_lt short)) ahead
      dsimp only
      rw [count, decide_eq_decide.mpr (mono.lt_iff_lt : _ ↔ behind < (frame.line number).stop),
        ← next, reads]
      by_cases mark : (decide (c = '.') || decide (c = ')')) = true
      · have other : c ≠ '(' := by
          rintro rfl
          cases mark
        rw [endsMarker_fill inert clear _ (proper.not_isSlot_succ held other),
          apply_ite (Option.map _)]
        rfl
      · rw [Bool.not_eq_true] at mark
        simp only [mark, Bool.and_false, Bool.false_and]
        rfl

theorem marker?_fill : (fillFrame words stencil frame).marker? number =
    (frame.marker? number).map (fillMarker words stencil) := by
  unfold Frame.marker?
  rw [ordinal?_fill proper inert clear, bullet?_fill proper inert clear]
  cases frame.ordinal? number <;> rfl

theorem list?_fill : (fillFrame words stencil frame).list? number =
    (frame.list? number).map (fillMarker words stencil) := by
  unfold Frame.list?
  dsimp only
  rw [isCode_fill clear, marker?_fill proper inert clear, line_fillFrame clear.source,
    apply_ite (Option.map _), apply_ite (Option.map _)]
  rfl

/-- Something else than blanks stands behind the mark of a list item, if it does in the outline. -/
theorem isInterruptingList_fill : (fillFrame words stencil frame).isInterruptingList number =
    frame.isInterruptingList number := by
  have mono : StrictMono (place words stencil) := place_strictMono inert
  unfold Frame.isInterruptingList
  rw [list?_fill proper inert clear]
  cases frame.list? number with
  | none => rfl
  | some marker =>
      dsimp only [Option.map_some, fillMarker]
      rw [isOutdented_fill clear, passSpaces_fill inert clear, line_fillFrame clear.source,
        stop_fillLine]
      simp only [mono.lt_iff_lt]

theorem isUnderline_fill : (fillFrame words stencil frame).isUnderline number =
    frame.isUnderline number := by
  have mono : StrictMono (place words stencil) := place_strictMono inert
  unfold Frame.isUnderline
  dsimp only
  rw [first?_fill proper inert clear, isOutdented_fill clear, isEmpty_fill inert clear]
  cases frame.first? number with
  | none => rfl
  | some mark =>
      dsimp only
      by_cases marks : (decide (mark = '-') || decide (mark = '=')) = true
      · have other : mark ≠ '(' := by
          rintro rfl
          cases marks
        rw [text_fill inert clear, passMarks_fill proper inert clear other,
          passSpaces_fill inert clear, line_fillFrame clear.source, stop_fillLine]
        simp only [mono.le_iff_le]
      · rw [Bool.not_eq_true] at marks
        rw [marks, Bool.and_false, Bool.false_and, Bool.false_and]

theorem html?_fill : frame.html? number = none ∧
    (fillFrame words stencil frame).html? number = none := by
  have notAngle : frame.first? number ≠ some '<' := fun first =>
    proper.noAngle (List.mem_of_getElem? (letter_of_first? proper clear first))
  unfold Frame.html?
  rw [isCode_fill clear, first?_fill proper inert clear, beq_eq_false_iff_ne.mpr notAngle,
    if_neg Bool.false_ne_true, if_neg Bool.false_ne_true, ite_self]
  exact ⟨rfl, rfl⟩

omit clear in
/-- No blank stands in a word or in front of one, so a heading that ends with a word ends there. -/
theorem closing_of_slot {behind slot own : Nat} (short : behind ≤ slot)
    (held : stencil[slot]? = some (.slot own)) :
    closing stencil.drawn behind (slot + 1) = slot + 1 ∧
      closing (filled words stencil) (place words stencil behind) (place words stencil (slot + 1)) =
        place words stencil (slot + 1) := by
  have isSlot : stencil.IsSlot slot := ⟨own, held⟩
  have nonempty : place words stencil slot < place words stencil (slot + 1) :=
    place_strictMono inert (Nat.lt_succ_self slot)
  rcases proper.before slot own held with ⟨label, rfl, bracket, parenthesis⟩
  constructor
  · -- In the outline a letter stands in front of the end.
    have marks : stencil.drawn.passBack (· == '#') behind (label + 2 + 1) = label + 2 + 1 := by
      refine Source.passBack_eq_of (Nat.le_succ_of_le short) (Nat.le_refl _)
        (fun place ahead before => absurd before (Nat.not_lt.mpr ahead)) fun _ c shown => ?_
      cases (drawn_of_slot held).symm.trans shown
      decide
    have letter : stencil.drawn[label + 2 + 1 - 1]? = some 'x' := drawn_of_slot held
    simp only [closing, marks, letter, Option.any_some, show isSpace 'x' = false by decide,
      Bool.and_false, Bool.false_eq_true, if_false]
  · -- In the text a word does, which the parenthesis in front of it ends.
    have before : place words stencil (label + 2) = place words stencil (label + 1) + 1 :=
      place_succ_of_letter parenthesis
    have lower : place words stencil (label + 2) ≤ (filled words stencil).passBack (· == '#')
        (place words stencil behind) (place words stencil (label + 2 + 1)) := by
      refine Nat.le_of_not_lt fun beyond => ?_
      rcases Source.test_of_passBack_le (Nat.le_of_lt_succ (beyond.trans_eq before)) (by omega)
        with ⟨c, stands, passes⟩
      cases (filled_of_letter parenthesis).symm.trans stands
      cases passes
    have upper : (filled words stencil).passBack (· == '#') (place words stencil behind)
        (place words stencil (label + 2 + 1)) ≤ place words stencil (label + 2 + 1) :=
      Source.passBack_le _ _
    unfold closing
    dsimp only
    generalize (filled words stencil).passBack (· == '#') (place words stencil behind)
      (place words stencil (label + 2 + 1)) = marks at lower upper ⊢
    have noBlank : ((filled words stencil)[marks - 1]?).any isSpace = false := by
      rcases Nat.eq_or_lt_of_le lower with same | inside
      · rw [← same, before, Nat.add_sub_cancel, filled_of_letter parenthesis]
        decide
      · rcases isSlot.inertBetween inert (marks - 1) (by omega) (by omega) with ⟨c, stands, plain⟩
        rw [stands, Option.any_some, even_isSpace c plain]
        decide
    rw [noBlank, Bool.and_false, if_neg Bool.false_ne_true]

omit clear in
/-- Marks at the end of a heading end it in the text as they do in the outline. -/
theorem closing_filled {behind last : Nat} (ordered : behind ≤ last)
    (within : last ≤ stencil.length) :
    closing (filled words stencil) (place words stencil behind) (place words stencil last) =
      place words stencil (closing stencil.drawn behind last) := by
  have mono : StrictMono (place words stencil) := place_strictMono inert
  have reach : behind ≤ stencil.drawn.passBack (· == '#') behind last := Source.le_passBack ordered
  have back : stencil.drawn.passBack (· == '#') behind last ≤ last := Source.passBack_le behind last
  by_cases slot : behind < last ∧ stencil.IsSlot (last - 1)
  · obtain ⟨slot, rfl⟩ : ∃ slot, last = slot + 1 := ⟨last - 1, by omega⟩
    rcases slot with ⟨short, own, held⟩
    have same := closing_of_slot proper inert (Nat.le_of_lt_succ short) held
    rw [same.1, same.2]
  · unfold closing
    generalize found : stencil.drawn.passBack (· == '#') behind last = marks at reach back
    have bare : behind < marks → ¬ stencil.IsSlot (marks - 1) := by
      rintro short ⟨number, held⟩
      rcases Nat.eq_or_lt_of_le back with rfl | before
      · exact slot ⟨short, number, held⟩
      · -- A mark does not end a destination.
        rcases Source.test_of_passBack_le found.le before with ⟨c, shown, passes⟩
        cases beq_iff_eq.mp passes
        have notSlot : ¬ stencil.IsSlot marks := by
          rintro ⟨other, stands⟩
          cases (drawn_of_slot stands).symm.trans shown
        have next : marks - 1 + 1 = marks := Nat.sub_add_cancel (by omega)
        rcases proper.behind _ _ _ held (next.symm ▸ letter_of_bare notSlot shown) with
          ⟨c, same, closes⟩
        cases same
        cases closes
    have placed : (filled words stencil).passBack (· == '#') (place words stencil behind)
        (place words stencil last) = place words stencil marks := by
      rw [← found] at bare ⊢
      exact passBack_filled inert (by decide) ordered within fun short isSlot =>
        absurd isSlot (bare short)
    dsimp only
    rw [placed]
    simp only [mono.lt_iff_lt]
    by_cases short : behind < marks
    · have next : marks - 1 + 1 = marks := Nat.sub_add_cancel (by omega)
      have place' : place words stencil marks - 1 = place words stencil (marks - 1) := by
        conv_lhs => rw [← next, place_succ_of_not_isSlot (bare short), Nat.add_sub_cancel]
      rw [place', getElem?_filled (bare short), apply_ite (place words stencil)]
    · simp only [short, decide_false, Bool.false_and, Bool.false_eq_true, if_false]

/-- The text of a heading stands where it stands in the outline. -/
theorem headingRange?_fill : headingRange? (fillFrame words stencil frame) number =
    (headingRange? frame number).map fun range =>
      (place words stencil range.1, place words stencil range.2) := by
  have mono : StrictMono (place words stencil) := place_strictMono inert
  have clearLine := clear.lines number
  have run := pass_marks proper inert (show '#' ≠ '(' by decide)
    (clearLine.not_isSlot_text proper) (frame.line number).stop
  have bare : stencil.BareBetween (frame.line number).text
      (stencil.drawn.pass (· == '#') (frame.line number).stop (frame.line number).text + 1) :=
    proper.bare_of_closed (by decide) (clearLine.not_isSlot_text proper)
  have ahead : (frame.line number).text ≤
      stencil.drawn.pass (· == '#') (frame.line number).stop (frame.line number).text :=
    Source.le_pass _ _
  have within : stencil.drawn.pass (· == '#') (frame.line number).stop (frame.line number).text ≤
      (frame.line number).stop :=
    (Source.pass_le _ _).trans_eq (Nat.max_eq_right clearLine.within)
  unfold headingRange?
  dsimp only
  rw [isCode_fill clear, source_fillFrame, clear.source, text_fill inert clear,
    line_fillFrame clear.source, stop_fillLine, run.1]
  revert run bare ahead within
  generalize stencil.drawn.pass (· == '#') (frame.line number).stop (frame.line number).text =
    behind
  rintro ⟨_, length⟩ bare ahead within
  have here : ¬ stencil.IsSlot behind := bare behind ahead (Nat.lt_succ_self behind)
  have level : place words stencil behind - place words stencil (frame.line number).text =
      behind - (frame.line number).text := by
    omega
  have last : (filled words stencil).passBack isSpace (place words stencil behind)
        (place words stencil (frame.line number).stop) =
      place words stencil (stencil.drawn.passBack isSpace behind (frame.line number).stop) :=
    passBack_filled inert (by decide) within clearLine.stop_le fun _ _ c plain =>
      (even_isSpace c plain).trans (by decide)
  have back : behind ≤ stencil.drawn.passBack isSpace behind (frame.line number).stop :=
    Source.le_passBack within
  have upper : stencil.drawn.passBack isSpace behind (frame.line number).stop ≤
      (frame.line number).stop := Source.passBack_le _ _
  rw [level, getElem?_filled here, decide_eq_decide.mpr (mono.lt_iff_lt : _ ↔ behind < _), last,
    closing_filled proper inert back (upper.trans clearLine.stop_le),
    apply_ite (Option.map _), apply_ite (Option.map _)]
  rfl

theorem heading?_fill : (fillFrame words stencil frame).heading? number =
    (headingRange? frame number).map fun range =>
      (text words (stencil.cut range.1 range.2)).trim := by
  rw [heading?_eq, headingRange?_fill proper inert clear, Option.map_map]
  cases found : headingRange? frame number with
  | none => rfl
  | some range =>
      have ordered := (headingRange?_bounds clear found).2.1
      exact congrArg (fun text => some (Text.trim text)) (between_filled ordered)

/-! ## What ends a block -/

theorem endsItem_fill : (fillFrame words stencil frame).endsItem number = frame.endsItem number := by
  rw [Frame.endsItem, fence?_fill proper inert clear, isQuote_fill proper inert clear,
    isRule_fill proper inert clear]
  rfl

theorem isSome_heading?_fill : ((fillFrame words stencil frame).heading? number).isSome =
    (frame.heading? number).isSome := by
  rw [heading?_fill proper inert clear, heading?_eq, Option.isSome_map, Option.isSome_map]

theorem endsText_fill : (fillFrame words stencil frame).endsText number = frame.endsText number := by
  rw [Frame.endsText, Frame.endsText, endsItem_fill proper inert clear,
    isSome_heading?_fill proper inert clear, (html?_fill proper inert clear).1,
    (html?_fill proper inert clear).2]

theorem endsParagraph_fill :
    (fillFrame words stencil frame).endsParagraph number = frame.endsParagraph number := by
  rw [Frame.endsParagraph, endsText_fill proper inert clear,
    isInterruptingList_fill proper inert clear]
  rfl

theorem endsContinuation_fill :
    (fillFrame words stencil frame).endsContinuation number = frame.endsContinuation number := by
  rw [Frame.endsContinuation, endsText_fill proper inert clear, list?_fill proper inert clear,
    Option.isSome_map]
  rfl

theorem fenceEnd_fill {mark : Char} (other : mark ≠ '(') (length stop most : Nat) :
    (fillFrame words stencil frame).fenceEnd mark length stop most number =
      frame.fenceEnd mark length stop most number := by
  induction most generalizing number with
  | zero => rfl
  | succ most inductionHypothesis =>
      rw [Frame.fenceEnd, Frame.fenceEnd, isEmpty_fill inert clear, isOutdented_fill clear,
        first?_fill proper inert clear, closesFence_fill proper inert clear other,
        inductionHypothesis]

theorem paragraphEnd_fill (most : Nat) :
    (fillFrame words stencil frame).paragraphEnd most number = frame.paragraphEnd most number := by
  induction most generalizing number with
  | zero => rfl
  | succ most inductionHypothesis =>
      rw [Frame.paragraphEnd, Frame.paragraphEnd, isEmpty_fill inert clear,
        isForced_fill clear, endsParagraph_fill proper inert clear,
        inductionHypothesis]
      rfl

theorem underline?_fill (stop most : Nat) :
    (fillFrame words stencil frame).underline? stop most number =
      frame.underline? stop most number := by
  induction most generalizing number with
  | zero => rfl
  | succ most inductionHypothesis =>
      rw [Frame.underline?, Frame.underline?, isEmpty_fill inert clear, isCode_fill clear,
        isUnderline_fill proper inert clear, isForced_fill clear,
        endsParagraph_fill proper inert clear, inductionHypothesis]

end Line

/-- A fence is no parenthesis. -/
theorem ne_of_fence? {mark : Char} {length : Nat} (found : frame.fence? number = some (mark, length)) :
    mark ≠ '(' := by
  unfold Frame.fence? at found
  dsimp only at found
  split at found
  · split at found
    · cases found
    · split at found
      · next fences =>
          split at found
          · cases found
          · split at found
            · cases found
            · cases found
              rintro rfl
              cases fences
      · cases found
  · cases found

end Stencil
end Markup
end Crosslink

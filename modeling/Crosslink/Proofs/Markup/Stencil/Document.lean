import Crosslink.Proofs.Markup.Stencil.Blocks
import Crosslink.Proofs.Markup.Stencil.Reach
import Crosslink.Proofs.Text.Breaks

namespace Crosslink
namespace Markup

/-!
Texts with slots as the reader of blocks sees them.  It drops the carriage returns in front of line
feeds and shows null characters as replacement characters; where no carriage return stands alone,
this can be done before the slots are filled, and each slot stays at its place as far as line
breaks and parentheses tell.
-/

/-- The cell as the reader of blocks sees it. -/
def Cell.plain? : Cell → Option Cell
  | .letter c => if c = '\r' then none else some (.letter (if c = '\x00' then '\uFFFD' else c))
  | .slot number => some (.slot number)

namespace Stencil

variable {words : Nat → Text} {stencil rest : Stencil} {cell : Cell}

/-- The cells as the reader of blocks sees them. -/
def plain (stencil : Stencil) : Stencil :=
  stencil.filterMap Cell.plain?

@[simp] theorem plain_append (front back : Stencil) :
    (front ++ back).plain = front.plain ++ back.plain :=
  List.filterMap_append

@[simp] theorem plain_return (rest : Stencil) : plain (.letter '\r' :: rest) = rest.plain :=
  List.filterMap_cons_none rfl

theorem plain_letter {c : Char} (other : c ≠ '\r') (rest : Stencil) :
    plain (.letter c :: rest) = .letter (if c = '\x00' then '\uFFFD' else c) :: rest.plain :=
  List.filterMap_cons_some (if_neg other)

@[simp] theorem plain_slot (number : Nat) (rest : Stencil) :
    plain (.slot number :: rest) = .slot number :: rest.plain :=
  List.filterMap_cons_some rfl

/-- Every carriage return stands in front of a line feed. -/
def Paired (stencil : Stencil) : Prop :=
  ∀ position, stencil[position]? = some (.letter '\r') →
    stencil[position + 1]? = some (.letter '\n')

theorem Paired.tail (paired : Paired (cell :: rest)) : rest.Paired :=
  fun position held => paired (position + 1) held

theorem Paired.exists_break (paired : Paired (.letter '\r' :: rest)) :
    ∃ more, rest = .letter '\n' :: more := by
  have next := paired 0 rfl
  cases rest with
  | nil => cases next
  | cons cell more =>
      cases next
      exact ⟨more, rfl⟩

theorem plainBreaks_inert {word : Text} (inert : ∀ c ∈ word, isInert c = true) (behind : Text) :
    plainBreaks (word ++ behind) = word ++ plainBreaks behind := by
  induction word with
  | nil => rfl
  | cons c word inductionHypothesis =>
      have own := inert c List.mem_cons_self
      have notReturn : c ≠ '\r' := by
        rintro rfl
        cases own
      have notNull : c ≠ '\x00' := by
        rintro rfl
        cases own
      have later := inductionHypothesis fun d held => inert d (List.mem_cons_of_mem c held)
      rw [List.cons_append, plainBreaks_cons notReturn, if_neg notNull, later, List.cons_append]

theorem plainBreaks_text (inert : Inert words) (paired : stencil.Paired) :
    plainBreaks (text words stencil) = text words stencil.plain := by
  induction stencil with
  | nil => rfl
  | cons cell rest inductionHypothesis =>
      have later := inductionHypothesis paired.tail
      cases cell with
      | letter c =>
          have whole : text words (.letter c :: rest) = c :: text words rest := rfl
          by_cases isReturn : c = '\r'
          · subst isReturn
            rcases paired.exists_break with ⟨more, rfl⟩
            rw [plain_return, ← later]
            exact plainBreaks.eq_2 _
          · rw [whole, plainBreaks_cons isReturn, plain_letter isReturn, later]
            rfl
      | slot number =>
          rw [plain_slot, text, List.flatMap_cons, Cell.fill, plainBreaks_inert (inert number).2]
          exact congrArg (words number ++ ·) later

/-! ## What is kept -/

/-- A letter in front is one that was in front, unless it is a line break or a replacement. -/
theorem getElem?_zero_plain (paired : rest.Paired) {c : Char} (first : rest.plain[0]? = some (.letter c))
    (notBreak : c ≠ '\n') (notReplaced : c ≠ '\uFFFD') : rest[0]? = some (.letter c) := by
  cases rest with
  | nil => cases first
  | cons cell more =>
      cases cell with
      | letter d =>
          by_cases isReturn : d = '\r'
          · subst isReturn
            rcases paired.exists_break with ⟨_, rfl⟩
            rw [plain_return, plain_letter (by decide)] at first
            exact absurd (Cell.letter.inj (Option.some.inj first)).symm notBreak
          · rw [plain_letter isReturn] at first
            have same : (if d = '\x00' then '\uFFFD' else d) = c :=
              Cell.letter.inj (Option.some.inj first)
            split at same
            · exact absurd same.symm notReplaced
            · exact congrArg (fun c => some (Cell.letter c)) same
      | slot number => cases first

theorem Paired.of_append {front : Stencil} (paired : Paired (front ++ rest)) : rest.Paired := by
  intro position held
  have further := paired (front.length + position) (by
    rw [List.getElem?_append_right (Nat.le_add_right _ _), Nat.add_sub_cancel_left, held])
  rwa [List.getElem?_append_right (by omega), Nat.add_assoc, Nat.add_sub_cancel_left] at further

theorem exists_of_plain_eq {front back : Stencil} {slot : Nat}
    (whole : stencil.plain = front ++ .slot slot :: back) :
    ∃ before after : Stencil, stencil = before ++ .slot slot :: after ∧ before.plain = front ∧
      after.plain = back := by
  rcases List.filterMap_eq_append_iff.mp whole with ⟨early, late, rfl, rfl, behind⟩
  rcases List.filterMap_eq_cons_iff.mp behind with ⟨passed, cell, after, rfl, dropped, same, rfl⟩
  have isSlot : cell = .slot slot := by
    cases cell with
    | letter c =>
        rw [Cell.plain?] at same
        split at same
        · cases same
        · cases same
    | slot number => exact Option.some.inj same
  have none : plain passed = [] := List.filterMap_eq_nil_iff.mpr dropped
  refine ⟨early ++ passed, after, ?_, ?_, rfl⟩
  · rw [isSlot, List.append_assoc]
  · rw [plain_append, none, List.append_nil]
    rfl

theorem Proper.plain (proper : stencil.Proper) (paired : stencil.Paired) : stencil.plain.Proper := by
  refine proper_of_around (fun held => ?_) fun front slot back whole => ?_
  · rcases List.mem_filterMap.mp held with ⟨cell, inCells, same⟩
    cases cell with
    | letter c =>
        rw [Cell.plain?] at same
        split at same
        · cases same
        · have angle : (if c = '\x00' then '\uFFFD' else c) = '<' :=
            Cell.letter.inj (Option.some.inj same)
          split at angle
          · cases angle
          · exact proper.noAngle (angle ▸ inCells)
    | slot number => cases same
  · rcases exists_of_plain_eq whole with ⟨before, after, rfl, rfl, rfl⟩
    rcases proper.around rfl with ⟨⟨label, rfl⟩, begins⟩
    refine ⟨⟨Stencil.plain label, plain_append _ _⟩, ?_⟩
    rcases begins with rfl | ⟨c, more, rfl, closes⟩
    · exact Or.inl rfl
    · by_cases isReturn : c = '\r'
      · subst isReturn
        rcases paired.of_append.tail.exists_break with ⟨later, rfl⟩
        exact Or.inr ⟨'\n', Stencil.plain later, plain_letter (show '\n' ≠ '\r' by decide) _, by decide⟩
      · have notNull : c ≠ '\x00' := by
          rintro rfl
          cases closes
        refine Or.inr ⟨c, Stencil.plain more, ?_, closes⟩
        rw [plain_letter isReturn, if_neg notNull]

theorem Undefining.plain (undefining : stencil.Undefining) (paired : stencil.Paired) :
    stencil.plain.Undefining := by
  induction stencil with
  | nil => exact fun position held => nomatch held
  | cons cell rest inductionHypothesis =>
      have later := inductionHypothesis (fun position => undefining (position + 1)) paired.tail
      cases cell with
      | letter c =>
          by_cases isReturn : c = '\r'
          · rw [isReturn, plain_return]
            exact later
          · rw [plain_letter isReturn]
            intro position bracket
            cases position with
            | zero =>
                have same : (if c = '\x00' then '\uFFFD' else c) = ']' :=
                  Cell.letter.inj (Option.some.inj bracket)
                split at same
                · cases same
                · intro colon
                  exact undefining 0 (congrArg (fun c => some (Cell.letter c)) same)
                    (getElem?_zero_plain paired.tail colon (by decide) (by decide))
            | succ position => exact later position bracket
      | slot number =>
          rw [plain_slot]
          intro position bracket
          cases position with
          | zero => cases bracket
          | succ position => exact later position bracket

/-- Blanks at the ends of lines are those of the outline. -/
theorem endsPlainly_outline (plainly : EndsPlainly (text words stencil)) :
    EndsPlainly stencil.outline := by
  have same (cells : Stencil) (blank : ∀ c ∈ Text.before '\n' cells.outline, isBlank c = true) :
      Text.before '\n' (text words cells) = Text.before '\n' cells.outline := by
    induction cells with
    | nil => rfl
    | cons cell rest inductionHypothesis =>
        cases cell with
        | letter c =>
            have whole : text words (.letter c :: rest) = c :: text words rest := rfl
            rw [outline_cons, Cell.outline] at blank
            rw [whole, outline_cons, Cell.outline]
            by_cases isBreak : c = '\n'
            · rw [isBreak, Text.before_cons_self, Text.before_cons_self]
            · rw [Text.before_cons_of_ne isBreak] at blank
              rw [Text.before_cons_of_ne isBreak, Text.before_cons_of_ne isBreak,
                inductionHypothesis fun d held => blank d (List.mem_cons_of_mem c held)]
        | slot number =>
            have seen := blank 'x' List.mem_cons_self
            cases seen
  intro position blank
  rw [outline, ← List.map_drop] at blank ⊢
  rcases Nat.le_total position stencil.length with within | beyond
  · have spaces := plainly (place words stencil position)
    rw [drop_place within] at spaces
    have drawn := same (stencil.drop position) blank
    rw [drawn] at spaces
    exact spaces blank
  · rw [List.drop_of_length_le beyond]
    exact fun c held => absurd held List.not_mem_nil

/-! ## Places -/

/-- What is shown of each cell counts as its letter of the outline does. -/
structure CountsAlike (shows : Cell → Text) : Prop where
  line : ∀ cell, (shows cell).count '\n' = [cell.outline].count '\n'
  opened : ∀ cell before, openedAfter before (shows cell) = openedAfter before [cell.outline]
  opening : ∀ cell {behind own}, opens behind = opens own →
    opens (shows cell ++ behind) = opens ([cell.outline] ++ own)

namespace CountsAlike

variable {shows : Cell → Text}

/-- A letter that is shown as a letter of the same kind. -/
theorem opens_letter {c d : Char} (breaks : c = '\n' ↔ d = '\n') (parenthesis : c = '(' ↔ d = '(')
    {behind own : Text} (same : opens behind = opens own) :
    opens ([c] ++ behind) = opens ([d] ++ own) := by
  by_cases isBreak : c = '\n'
  · rw [opens_append_of_mem _ (List.mem_singleton.mpr isBreak.symm),
      opens_append_of_mem _ (List.mem_singleton.mpr (breaks.mp isBreak).symm), isBreak,
      breaks.mp isBreak]
  · rw [opens_append _ fun held => isBreak (List.mem_singleton.mp held).symm,
      opens_append _ fun held => isBreak (breaks.mpr (List.mem_singleton.mp held).symm), same,
      List.count_singleton, List.count_singleton]
    simp only [beq_iff_eq, parenthesis]

theorem opens_quiet {quiet : Text} (oneLine : '\n' ∉ quiet) (closed : '(' ∉ quiet)
    {behind own : Text} (same : opens behind = opens own) :
    opens (quiet ++ behind) = opens (['x'] ++ own) := by
  rw [opens_append _ oneLine, List.count_eq_zero.mpr closed, Nat.zero_add, same,
    opens_append _ (by decide)]
  exact (Nat.zero_add _).symm

variable (alike : CountsAlike shows) (cells : Stencil)
include alike

theorem count_flatMap : (cells.flatMap shows).count '\n' = cells.outline.count '\n' := by
  induction cells with
  | nil => rfl
  | cons cell rest inductionHypothesis =>
      rw [List.flatMap_cons, List.count_append, alike.line, inductionHypothesis, outline_cons,
        ← List.count_append, List.singleton_append]

theorem openedAfter_flatMap (before : Nat) :
    openedAfter before (cells.flatMap shows) = openedAfter before cells.outline := by
  induction cells generalizing before with
  | nil => rfl
  | cons cell rest inductionHypothesis =>
      rw [List.flatMap_cons, openedAfter_append, alike.opened, inductionHypothesis, outline_cons,
        ← openedAfter_append, List.singleton_append]

theorem opens_flatMap : opens (cells.flatMap shows) = opens cells.outline := by
  induction cells with
  | nil => rfl
  | cons cell rest inductionHypothesis =>
      rw [List.flatMap_cons, outline_cons, alike.opening cell inductionHypothesis,
        List.singleton_append]

end CountsAlike

/-- Filling the slots moves no place. -/
theorem countsAlike_fill (inert : Inert words) : CountsAlike (Cell.fill words) := by
  have oneLine (number : Nat) : '\n' ∉ words number := fun held => nomatch (inert number).2 _ held
  have closed (number : Nat) : '(' ∉ words number := fun held => nomatch (inert number).2 _ held
  constructor
  · rintro (c | number)
    · rfl
    · exact List.count_eq_zero.mpr (oneLine number)
  · rintro (c | number) before
    · rfl
    · rw [Cell.fill, openedAfter_of_oneLine (oneLine number), List.count_eq_zero.mpr (closed number)]
      rfl
  · rintro (c | number) behind own same
    · exact CountsAlike.opens_letter Iff.rfl Iff.rfl same
    · exact CountsAlike.opens_quiet (oneLine number) (closed number) same

/-- Nor does leaving out carriage returns. -/
theorem countsAlike_plain : CountsAlike fun cell => outline cell.plain?.toList := by
  have shown {c : Char} (other : c ≠ '\r') :
      outline (Cell.plain? (.letter c)).toList = [if c = '\x00' then '\uFFFD' else c] := by
    rw [Cell.plain?, if_neg other]
    rfl
  have kind {c mark : Char} (notNull : mark ≠ '\x00') (notReplaced : mark ≠ '\uFFFD') :
      (if c = '\x00' then '\uFFFD' else c) = mark ↔ c = mark := by
    split
    · next isNull => exact ⟨fun same => absurd same.symm notReplaced, fun same =>
        absurd (same.symm.trans isNull) notNull⟩
    · exact Iff.rfl
  constructor
  · rintro (c | number)
    · by_cases isReturn : c = '\r'
      · rw [isReturn]
        rfl
      · rw [shown isReturn, List.count_singleton, List.count_singleton]
        simp only [beq_iff_eq, Cell.outline, kind (show '\n' ≠ '\x00' by decide) (by decide)]
    · rfl
  · rintro (c | number) before
    · by_cases isReturn : c = '\r'
      · rw [isReturn]
        rfl
      · rw [shown isReturn]
        exact if_congr (kind (by decide) (by decide)) rfl
          (if_congr (kind (by decide) (by decide)) rfl rfl)
    · rfl
  · rintro (c | number) behind own same
    · by_cases isReturn : c = '\r'
      · rw [isReturn]
        exact same.trans ((opens_append own (by decide)).trans (Nat.zero_add _)).symm
      · rw [shown isReturn]
        exact CountsAlike.opens_letter (kind (by decide) (by decide)) (kind (by decide) (by decide))
          same
    · exact CountsAlike.opens_letter Iff.rfl Iff.rfl same

/-- A slot stays at its place. -/
theorem aligned_plain (front back : Stencil) :
    Aligned 0 front.outline back.outline front.plain.outline back.plain.outline := by
  have whole (cells : Stencil) :
      cells.plain.outline = cells.flatMap fun cell => outline cell.plain?.toList := by
    rw [plain, outline, List.filterMap_eq_flatMap_toList, List.map_flatMap]
    rfl
  rw [whole, whole]
  constructor
  · rw [countsAlike_plain.count_flatMap, Nat.zero_add]
  · rw [countsAlike_plain.openedAfter_flatMap]
  · rw [countsAlike_plain.opens_flatMap]

/-- A slot is at the same place in filled texts as in their outlines. -/
theorem aligned_text (inert : Inert words) {number : Nat} (slot : Nat)
    {before after front back : Stencil}
    (aligned : Aligned number before.outline after.outline front.outline back.outline) :
    Aligned number (text words before) (words slot ++ text words after) (text words front)
      (words slot ++ text words back) := by
  have word (cells : Stencil) : opens (words slot ++ text words cells) = opens cells.outline := by
    have oneLine : '\n' ∉ words slot := fun held => nomatch (inert slot).2 _ held
    have closed : '(' ∉ words slot := fun held => nomatch (inert slot).2 _ held
    rw [opens_append _ oneLine, List.count_eq_zero.mpr closed, Nat.zero_add]
    exact (countsAlike_fill inert).opens_flatMap cells
  constructor
  · rw [text, text, (countsAlike_fill inert).count_flatMap, (countsAlike_fill inert).count_flatMap]
    exact aligned.line
  · rw [text, text, (countsAlike_fill inert).openedAfter_flatMap,
      (countsAlike_fill inert).openedAfter_flatMap]
    exact aligned.opened
  · rw [word, word]
    exact aligned.opens

end Stencil

/-!
## Documents with slots

No word holds a line break, so every filled text has the lines of the outline; and what the reader
of blocks makes of line breaks and null characters can be done before the slots are filled.
-/

namespace Stencil

variable {words : Nat → Text} {stencil : Stencil} {start position number : Nat}

/-! ## Lines -/

/-- A line of the document begins here. -/
def Begins (stencil : Stencil) (start : Nat) : Prop :=
  start = 0 ∨ ∃ before, start = before + 1 ∧ stencil[before]? = some (.letter '\n')

theorem Begins.not_isSlot (begins : stencil.Begins start) (proper : stencil.Proper) :
    ¬ stencil.IsSlot start := by
  rcases begins with rfl | ⟨before, rfl, breaks⟩
  · exact proper.reached_zero.notSlot
  · exact proper.not_isSlot_succ breaks (by decide)

theorem bounds_of_mem_lineEnds {fuel : Nat} {ends : Nat × Nat} (begins : stencil.Begins start)
    (ordered : start ≤ position) (listed : ends ∈ lineEnds stencil.drawn fuel start position) :
    stencil.Begins ends.1 ∧ ends.1 ≤ ends.2 := by
  induction fuel generalizing start position with
  | zero => exact absurd listed List.not_mem_nil
  | succ fuel inductionHypothesis =>
      rw [lineEnds] at listed
      split at listed
      · next c shown =>
          split at listed
          · next isBreak =>
              rcases List.mem_cons.mp listed with rfl | later
              · exact ⟨begins, ordered⟩
              · have held := letter_of_drawn (isBreak ▸ shown) (by decide)
                exact inductionHypothesis (.inr ⟨position, rfl, held⟩) (Nat.le_refl _) later
          · exact inductionHypothesis begins (Nat.le_succ_of_le ordered) listed
      · split at listed
        · cases List.mem_singleton.mp listed
          exact ⟨begins, ordered⟩
        · exact absurd listed List.not_mem_nil

/-- Characters that are no line breaks are passed. -/
theorem lineEnds_add {source : Source} (length fuel : Nat) {spot : Nat}
    (within : ∀ step < length, ∃ c, source[spot + step]? = some c ∧ c ≠ '\n') :
    lineEnds source (fuel + length) start spot = lineEnds source fuel start (spot + length) := by
  induction length generalizing spot with
  | zero => rfl
  | succ length inductionHypothesis =>
      rcases within 0 (Nat.succ_pos _) with ⟨c, shown, notBreak⟩
      have further : ∀ step < length, ∃ c, source[spot + 1 + step]? = some c ∧ c ≠ '\n' := by
        intro step short
        rw [Nat.add_right_comm]
        exact within (step + 1) (Nat.succ_lt_succ short)
      rw [Nat.add_zero] at shown
      rw [← Nat.add_assoc, lineEnds, shown]
      dsimp only
      rw [if_neg notBreak, inductionHypothesis further, Nat.add_right_comm, Nat.add_assoc]

/-- The lines of a filled text end where those of the outline end. -/
theorem lineEnds_filled (inert : Inert words) {fuel fuel' : Nat} (within : position ≤ stencil.length)
    (ordered : start ≤ position) (enough : stencil.length < fuel + position)
    (enough' : place words stencil stencil.length < fuel' + place words stencil position) :
    lineEnds (filled words stencil) fuel' (place words stencil start) (place words stencil position) =
      (lineEnds stencil.drawn fuel start position).map fun ends =>
        (place words stencil ends.1, place words stencil ends.2) := by
  have mono : StrictMono (place words stencil) := place_strictMono inert
  induction fuel generalizing start position fuel' with
  | zero => omega
  | succ fuel inductionHypothesis =>
      rcases Nat.eq_or_lt_of_le within with rfl | inside
      · obtain ⟨fuel', rfl⟩ : ∃ more, fuel' = more + 1 := ⟨fuel' - 1, by omega⟩
        have none : stencil[stencil.length]? = none := List.getElem?_eq_none (Nat.le_refl _)
        rw [lineEnds, lineEnds, filled_of_none none, drawn_of_none none]
        dsimp only
        rw [pass_filled_of_even inert even_isSpace]
        simp only [mono.lt_iff_lt]
        split
        · rfl
        · rfl
      · have held : stencil[position]? = some stencil[position] := List.getElem?_eq_getElem inside
        have further : position + 1 ≤ stencil.length := inside
        have beyond := mono inside
        have next : place words stencil (position + 1) =
            place words stencil position + (stencil[position].fill words).length := place_succ held
        by_cases isBreak : stencil[position] = .letter '\n'
        · rw [isBreak] at held next
          obtain ⟨fuel', rfl⟩ : ∃ more, fuel' = more + 1 := ⟨fuel' - 1, by omega⟩
          change _ = _ + 1 at next
          rw [lineEnds, lineEnds, filled_of_letter held, drawn_of_letter held]
          dsimp only
          rw [if_pos rfl, if_pos rfl, ← next, inductionHypothesis further (Nat.le_refl _) (by omega)
            (by omega)]
          rfl
        · -- A letter or a word is passed.
          have passed : ∀ step < (stencil[position].fill words).length, ∃ c,
              (filled words stencil)[place words stencil position + step]? = some c ∧ c ≠ '\n' := by
            intro step short
            have shown := getElem?_text_add held short
            rw [List.getElem?_eq_getElem short] at shown
            refine ⟨_, (List.getElem?_toArray ..).trans shown, fun same => ?_⟩
            have inCell := same ▸ List.getElem_mem short
            cases cell : stencil[position] with
            | letter c =>
                rw [cell] at inCell isBreak
                exact isBreak (congrArg Cell.letter (List.mem_singleton.mp inCell).symm)
            | slot number =>
                rw [cell] at inCell
                cases (inert number).2 _ inCell
          have shown : ∃ c, stencil.drawn[position]? = some c ∧ c ≠ '\n' := by
            cases cell : stencil[position] with
            | letter c =>
                rw [cell] at held isBreak
                exact ⟨c, drawn_of_letter held, fun same => isBreak (congrArg Cell.letter same)⟩
            | slot number =>
                rw [cell] at held
                exact ⟨'x', drawn_of_slot held, by decide⟩
          rcases shown with ⟨c, shown, notBreak⟩
          obtain ⟨fuel', rfl⟩ : ∃ more, fuel' = more + (stencil[position].fill words).length :=
            ⟨fuel' - (stencil[position].fill words).length, by
              have := mono.monotone further
              omega⟩
          rw [lineEnds_add _ _ passed, ← next, lineEnds, shown]
          dsimp only
          rw [if_neg notBreak]
          exact inductionHypothesis further (Nat.le_succ_of_le ordered) (by omega) (by omega)

theorem between_fillLine (proper : stencil.Proper) (inert : Inert words) {ends : Nat × Nat}
    (begins : stencil.Begins ends.1) (ordered : ends.1 ≤ ends.2) :
    Line.between (filled words stencil) (place words stencil ends.1) (place words stencil ends.2) =
      fillLine words stencil (Line.between stencil.drawn ends.1 ends.2) := by
  have passed := passIndent_filled proper inert ordered (begins.not_isSlot proper) 0 0
  have ahead := (passIndent_spec stencil.drawn 0 (ends.2 - ends.1) ends.1 0).1
  rw [Line.between, passed, fillLine, Line.between]
  dsimp only [Line.text]
  rw [Nat.add_sub_cancel' ahead]

theorem linesOf_filled (proper : stencil.Proper) (inert : Inert words) :
    linesOf (filled words stencil) = (linesOf stencil.drawn).map (fillLine words stencil) := by
  have enough : place words stencil stencil.length <
      place words stencil stencil.length + 1 + place words stencil 0 :=
    (Nat.lt_succ_self _).trans_le (Nat.le_add_right _ _)
  have ends := lineEnds_filled inert (Nat.zero_le stencil.length) (Nat.le_refl 0)
    (Nat.lt_succ_self stencil.length) enough
  rw [place_zero, ← size_filled, ← size_drawn] at ends
  rw [linesOf, linesOf, ends, List.map_map, List.map_toArray, List.map_map]
  refine congrArg List.toArray (List.map_congr_left fun ends listed => ?_)
  rcases bounds_of_mem_lineEnds (.inl rfl) (Nat.le_refl 0) listed with ⟨begins, ordered⟩
  exact between_fillLine proper inert begins ordered

/-- The lines of a document have nothing but indentation in front of their texts. -/
theorem clearFrame_document (stencil : Stencil) (limit : Nat) (blockIndent listIndent : Int) :
    ClearFrame stencil
      { source := stencil.drawn, lines := linesOf stencil.drawn, limit, blockIndent, listIndent } where
  source := rfl
  lines number := by
    have lies := Frame.lies_document stencil.drawn limit blockIndent listIndent number
    unfold Frame.line at lies ⊢
    dsimp only at lies ⊢
    cases listed : (linesOf stencil.drawn)[number]? with
    | none =>
        rw [listed] at lies
        exact ⟨lies, Nat.le_refl _, fun place ahead before => absurd before (Nat.not_lt.mpr ahead),
          fun short => absurd short (Nat.lt_irrefl _)⟩
    | some line =>
        rw [listed, Option.getD_some] at lies
        rw [Option.getD_some]
        rw [linesOf, List.getElem?_toArray, List.getElem?_map] at listed
        rcases Option.map_eq_some_iff.mp listed with ⟨ends, found, rfl⟩
        rcases bounds_of_mem_lineEnds (.inl rfl) (Nat.le_refl 0) (List.mem_of_getElem? found) with
          ⟨begins, ordered⟩
        have indent := passIndent_margin stencil 0 (ends.2 - ends.1) ends.1 0
        have ahead := (passIndent_spec stencil.drawn 0 (ends.2 - ends.1) ends.1 0).1
        have text : (Line.between stencil.drawn ends.1 ends.2).text =
            (passIndent stencil.drawn 0 (ends.2 - ends.1) ends.1 0).1 := Nat.add_sub_cancel' ahead
        rw [← text, Nat.add_sub_cancel' ordered] at indent
        refine ⟨lies, indent.1, indent.2, fun nonempty place before onLine => ?_⟩
        rcases Nat.lt_or_ge place ends.1 with earlier | later
        · -- The line begins behind a line break, so what stands in front is on another line.
          rcases begins with first | ⟨last, same, breaks⟩
          · omega
          · have here := lies.numbered _ (Nat.le_refl _)
              ((Nat.le_add_right _ _).trans_lt nonempty)
            have above : (stencil.outline.take place).count '\n' ≤
                (stencil.outline.take last).count '\n' :=
              (List.take_prefix_take_left (by omega)).sublist.count_le _
            have counted : (stencil.outline.take (last + 1)).count '\n' =
                (stencil.outline.take last).count '\n' + 1 := by
              rw [List.take_add_one, getElem?_outline, breaks, List.count_append]
              rfl
            have start : (Line.between stencil.drawn ends.1 ends.2).start = last + 1 := same
            rw [toList_drawn, start, counted] at here
            omega
        · exact indent.2 place later before

/-! ## Documents -/

/-- Whatever words fill the slots of a document that defines no labels, its runs of inline text are
the same, filled. -/
theorem exists_forms (proper : stencil.Proper) (paired : stencil.Paired)
    (undefining : stencil.Undefining) (plainly : EndsPlainly stencil.plain.outline) :
    ∃ forms : List Form, (∀ form ∈ forms, Shown stencil.plain form.line form.cells) ∧
      ∀ words, Inert words → Document.ofText (text words stencil) =
        { leaves := forms.map (Form.leaf words), labels := [] } := by
  have proper := proper.plain paired
  rcases read_evenly proper plainly (undefining.plain paired) deepestLevel _ 0 _
      (clearFrame_document stencil.plain (linesOf stencil.plain.drawn).size 0 (-1)) (Nat.le_refl _)
    with ⟨next, forms, shown, reads⟩
  refine ⟨forms.reverse, fun form member => shown form (List.mem_reverse.mp member),
    fun words inert => ?_⟩
  have read := reads words inert { leaves := [], labels := [] }
  dsimp only at read
  have frame : fillFrame words stencil.plain
        { source := stencil.plain.drawn, lines := linesOf stencil.plain.drawn,
          limit := (linesOf stencil.plain.drawn).size, blockIndent := 0, listIndent := -1 } =
      { source := filled words stencil.plain, lines := linesOf (filled words stencil.plain),
        limit := (linesOf (filled words stencil.plain)).size, blockIndent := 0
        listIndent := -1 } := by
    rw [fillFrame, linesOf_filled proper inert, Array.size_map]
  have size : (linesOf (filled words stencil.plain)).size = (linesOf stencil.plain.drawn).size := by
    rw [linesOf_filled proper inert, Array.size_map]
  rw [frame] at read
  rw [Document.ofText, plainBreaks_text inert paired, ← filled]
  dsimp only
  rw [← size] at read
  rw [read, addForms]
  dsimp only
  rw [List.append_nil, ← List.map_reverse]

/-! ## What a filled text says of its stencil -/

theorem mem_text_of_letter {c : Char} (held : .letter c ∈ stencil) : c ∈ text words stencil :=
  List.mem_flatMap.mpr ⟨.letter c, held, List.mem_singleton_self c⟩

/-- A character that no word holds is one of the letters. -/
theorem letter_of_text (inert : Inert words) {c : Char} (marked : isInert c = false)
    (shown : (text words stencil)[place words stencil position]? = some c) :
    stencil[position]? = some (.letter c) := by
  cases held : stencil[position]? with
  | none => cases (getElem?_text_of_none held).symm.trans shown
  | some cell =>
      cases cell with
      | letter d => cases (getElem?_text_of_letter held).symm.trans shown; rfl
      | slot number =>
          rcases filled_of_slot inert held with ⟨d, stands, plain⟩
          rw [filled, List.getElem?_toArray] at stands
          cases stands.symm.trans shown
          cases marked.symm.trans plain

theorem exists_of_text_eq_concat (inert : Inert words) {c : Char} (marked : isInert c = false)
    {before : Text} (ends : text words stencil = before ++ [c]) :
    ∃ front, stencil = front ++ [.letter c] ∧ text words front = before := by
  rcases List.eq_nil_or_concat' stencil with rfl | ⟨front, cell, rfl⟩
  · exact absurd ends.symm (List.append_ne_nil_of_right_ne_nil _ (List.cons_ne_nil _ _))
  · rw [text_append, text_singleton] at ends
    cases cell with
    | letter d =>
        rcases List.append_inj' ends rfl with ⟨same, last⟩
        exact ⟨front, List.singleton_inj.mp last ▸ rfl, same⟩
    | slot number =>
        rcases List.eq_nil_or_concat' (words number) with none | ⟨early, last, word⟩
        · exact absurd none (inert number).1
        · rw [Cell.fill, word, ← List.append_assoc] at ends
          rcases List.append_inj' ends rfl with ⟨_, same⟩
          have plain := (inert number).2 last (word ▸ List.mem_append_right _ List.mem_cons_self)
          rw [List.singleton_inj.mp same, marked] at plain
          cases plain

theorem endsOpen_of_text (inert : Inert words) (ends : [']', '('] <:+ text words stencil) :
    stencil.EndsOpen := by
  rcases ends with ⟨label, whole⟩
  have last : text words stencil = (label ++ [']']) ++ ['('] := by
    rw [← whole, List.append_assoc]
    rfl
  rcases exists_of_text_eq_concat inert (show isInert '(' = false by decide) last with
    ⟨front, rfl, same⟩
  rcases exists_of_text_eq_concat inert (show isInert ']' = false by decide) same with
    ⟨label, rfl, _⟩
  exact ⟨label, List.append_assoc ..⟩

theorem beginsClosed_of_text (inert : Inert words)
    (closes : ∀ c ∈ (text words stencil).head?, closesSlot c = true) : stencil.BeginsClosed := by
  rcases stencil with _ | ⟨c | number, rest⟩
  · exact Or.inl rfl
  · exact Or.inr ⟨c, rest, rfl, closes c rfl⟩
  · rcases List.exists_cons_of_ne_nil (inert number).1 with ⟨c, more, word⟩
    have first : (text words (.slot number :: rest)).head? = some c := by
      rw [text, List.flatMap_cons, Cell.fill, word]
      rfl
    have plain := (inert number).2 c (word ▸ List.mem_cons_self)
    have ends := closes c first
    simp only [closesSlot, Bool.or_eq_true, decide_eq_true_eq] at ends
    rcases ends with (((rfl | rfl) | rfl) | rfl) | rfl
    all_goals cases plain

theorem paired_of_text (inert : Inert words) (returns : ∀ place, (text words stencil)[place]? = some '\r' →
    (text words stencil)[place + 1]? = some '\n') : stencil.Paired := by
  intro position held
  have next := returns _ (getElem?_text_of_letter held)
  rw [← place_succ_of_letter held] at next
  exact letter_of_text inert (by decide) next

theorem undefining_of_text (undefining : ¬ [']', ':'] <:+: text words stencil) :
    stencil.Undefining := by
  intro position bracket colon
  have shown : (text words stencil).drop (place words stencil position) =
      [']', ':'] ++ text words (stencil.drop (position + 2)) := by
    rw [drop_place_of_held bracket, List.drop_eq_getElem_cons (lt_length_of_held colon),
      (List.getElem?_eq_some_iff.mp colon).2]
    rfl
  exact undefining ((shown ▸ List.prefix_append _ _ : _ <+: _).isInfix.trans
    (List.drop_suffix _ _).isInfix)

end Stencil

end Markup
end Crosslink

import Crosslink.Proofs.Markup.Spelling
import Crosslink.Proofs.Markup.Stencil.Construct

namespace Crosslink
namespace Markup
namespace Stencil

/-!
Lines of a filled text.  The bracket and the parenthesis in front of a slot belong to the text of
its line, not to the marks of the containers in front of that text, so a line of the filled text
has its marks and its indentation in common with the line of the outline.
-/

variable {words : Nat → Text} {stencil : Stencil} {position start stop number : Nat} {line : Line}

/-! ## Margins -/

/-- The character is none of the two that stand in front of a slot. -/
def isMargin (c : Char) : Bool :=
  c != '(' && c != ']'

/-- At the position stands a letter that is none of the two in front of a slot. -/
def HasMargin (stencil : Stencil) (position : Nat) : Prop :=
  ∃ c, stencil[position]? = some (.letter c) ∧ isMargin c = true

@[simp] theorem toList_drawn (stencil : Stencil) : stencil.drawn.toList = stencil.outline :=
  rfl

theorem HasMargin.not_letter (margin : stencil.HasMargin position) {c : Char}
    (other : isMargin c = false) : stencil[position]? ≠ some (.letter c) := by
  rcases margin with ⟨d, held, isMargin⟩
  rintro stands
  cases held.symm.trans stands
  cases isMargin.symm.trans other

theorem HasMargin.not_isSlot (margin : stencil.HasMargin position) : ¬ stencil.IsSlot position := by
  rcases margin with ⟨c, held, _⟩
  exact not_isSlot_of_letter held

/-- No slot stands behind a margin. -/
theorem Proper.not_isSlot_of_margin (proper : stencil.Proper)
    (margin : stencil.HasMargin position) : ¬ stencil.IsSlot (position + 1) := by
  rintro ⟨number, held⟩
  rcases proper.before _ number held with ⟨label, same, _, parenthesis⟩
  rw [← Nat.succ.inj same] at parenthesis
  exact margin.not_letter (by decide) parenthesis

/-- What stands on a line of the document in front of the text of a line is margin. -/
structure ClearLine (stencil : Stencil) (number : Nat) (line : Line) : Prop where
  lies : line.Lies stencil.drawn number
  within : line.text ≤ line.stop
  own : ∀ place, line.start ≤ place → place < line.text → stencil.HasMargin place
  head : line.text < line.stop → ∀ place < line.text,
    (stencil.outline.take place).count '\n' = number → stencil.HasMargin place

theorem count_take_succ {c : Char} (held : stencil[position]? = some (.letter c)) (other : c ≠ '\n') :
    (stencil.outline.take (position + 1)).count '\n' =
      (stencil.outline.take position).count '\n' := by
  have next : stencil.outline[position]? = some c := by
    rw [getElem?_outline, held, Option.map_some, Cell.outline]
  rw [List.take_add_one, next, List.count_append]
  simp [other]

namespace ClearLine

theorem stop_le (clear : ClearLine stencil number line) : line.stop ≤ stencil.length :=
  clear.lies.le_size.trans_eq (size_drawn stencil)

/-- A line ends with a line break or with the document. -/
theorem not_isSlot_stop (clear : ClearLine stencil number line) : ¬ stencil.IsSlot line.stop := by
  rcases clear.lies.ends with breaks | last
  · exact not_isSlot_of_letter (letter_of_drawn breaks (by decide))
  · rw [size_drawn] at last
    exact not_isSlot_of_none (List.getElem?_eq_none_iff.mpr last.ge)

/-- The bracket and the parenthesis in front of a slot stand in the text of its line. -/
theorem text_le (clear : ClearLine stencil number line) (proper : stencil.Proper)
    (isSlot : stencil.IsSlot position) (ahead : line.start ≤ position)
    (before : position < line.stop) : line.text + 2 ≤ position := by
  rcases isSlot with ⟨own, held⟩
  have notOwn : ¬ position < line.text := fun short =>
    (clear.own position ahead short).not_isSlot ⟨own, held⟩
  have nonempty : line.text < line.stop := by omega
  rcases proper.before position own held with ⟨label, rfl, bracket, parenthesis⟩
  have onLine := clear.lies.numbered (label + 2) ahead before
  rw [toList_drawn, count_take_succ parenthesis (by decide)] at onLine
  have notParenthesis : ¬ label + 1 < line.text := fun short =>
    (clear.head nonempty (label + 1) short onLine).not_letter (by decide) parenthesis
  rw [count_take_succ bracket (by decide)] at onLine
  have notBracket : ¬ label < line.text := fun short =>
    (clear.head nonempty label short onLine).not_letter (by decide) bracket
  omega

theorem bare (clear : ClearLine stencil number line) (proper : stencil.Proper) :
    stencil.BareBetween line.start (line.text + 1) := by
  intro spot ahead before isSlot
  rcases Nat.lt_or_ge spot line.stop with inside | beyond
  · have far := clear.text_le proper isSlot ahead inside
    omega
  · have within := clear.within
    exact clear.not_isSlot_stop ((by omega : spot = line.stop) ▸ isSlot)

theorem not_isSlot_text (clear : ClearLine stencil number line) (proper : stencil.Proper) :
    ¬ stencil.IsSlot line.text :=
  clear.bare proper _ (Nat.le_add_right _ _) (Nat.lt_succ_self _)

end ClearLine

/-! ## Lines of the filled text -/

/-- The line of the filled text that is a line of the outline. -/
def fillLine (words : Nat → Text) (stencil : Stencil) (line : Line) : Line where
  start := place words stencil line.start
  stop := place words stencil line.stop
  shift := place words stencil line.text - place words stencil line.start
  indent := line.indent
  column := line.column

@[simp] theorem stop_fillLine (words : Nat → Text) (stencil : Stencil) (line : Line) :
    (fillLine words stencil line).stop = place words stencil line.stop :=
  rfl

theorem text_fillLine (inert : Inert words) (stencil : Stencil) (line : Line) :
    (fillLine words stencil line).text = place words stencil line.text := by
  have mono : StrictMono (place words stencil) := place_strictMono inert
  exact Nat.add_sub_cancel' (mono.monotone (Nat.le_add_right _ _))

theorem isEmpty_fillLine (inert : Inert words) (stencil : Stencil) (line : Line) :
    (fillLine words stencil line).isEmpty = line.isEmpty := by
  have mono : StrictMono (place words stencil) := place_strictMono inert
  rw [Line.isEmpty, text_fillLine inert]
  exact decide_eq_decide.mpr mono.le_iff_le

/-- Indentation is passed as in the outline. -/
theorem passIndent_filled (proper : stencil.Proper) (inert : Inert words) (ordered : start ≤ stop)
    (bare : ¬ stencil.IsSlot start) (column offset : Int) :
    passIndent (filled words stencil) column (place words stencil stop - place words stencil start)
        (place words stencil start) offset =
      (place words stencil (passIndent stencil.drawn column (stop - start) start offset).1,
        (passIndent stencil.drawn column (stop - start) start offset).2) := by
  have mono : StrictMono (place words stencil) := place_strictMono inert
  induction ordered using Nat.decreasingInduction generalizing offset with
  | self =>
      rw [Nat.sub_self, Nat.sub_self]
      rfl
  | of_succ start before inductionHypothesis =>
      have next : place words stencil (start + 1) = place words stencil start + 1 :=
        place_succ_of_not_isSlot bare
      have further : place words stencil (start + 1) ≤ place words stencil stop :=
        mono.monotone before
      have most : stop - start = stop - (start + 1) + 1 := by omega
      have most' : place words stencil stop - place words stencil start =
          place words stencil stop - place words stencil (start + 1) + 1 := by omega
      rw [most, most', passIndent, passIndent, has_filled inert (by decide : isInert '\t' = false),
        has_filled inert (by decide : isInert ' ' = false), ← next]
      split
      · next tab =>
          have held := letter_of_drawn (Source.has_iff.mp tab) (by decide)
          exact inductionHypothesis (proper.not_isSlot_succ held (by decide)) _
      · split
        · next space =>
            have held := letter_of_drawn (Source.has_iff.mp space) (by decide)
            exact inductionHypothesis (proper.not_isSlot_succ held (by decide)) _
        · rfl

/-- Nothing is taken of what is neither a tab, nor a space, nor a mark. -/
theorem passColumns_of_text {source : Source} (noTab : source.has position '\t' = false)
    (noSpace : source.has position ' ' = false) (noMark : line.shift ≤ position - line.start)
    (columns : Int) (most : Nat) (taken : Int) :
    passColumns source line stop columns most position taken = (position, taken) := by
  cases most with
  | zero => rfl
  | succ most => simp [passColumns, noTab, noSpace, Nat.not_lt.mpr noMark]

/-- A mark of a container is one in the filled text. -/
theorem mark_fillLine (inert : Inert words) (stencil : Stencil) (ahead : line.start ≤ position) :
    place words stencil position - (fillLine words stencil line).start <
        (fillLine words stencil line).shift ↔ position - line.start < line.shift := by
  have mono : StrictMono (place words stencil) := place_strictMono inert
  have lower := mono.monotone ahead
  have order : place words stencil position < place words stencil line.text ↔
      position < line.text := mono.lt_iff_lt
  rw [Line.text] at order
  simp only [fillLine, Line.text]
  omega

/-- Columns are taken off the front of a line as in the outline. -/
theorem passColumns_filled (inert : Inert words) (proper : stencil.Proper)
    (clear : ClearLine stencil number line) (nonempty : line.text < line.stop)
    (further : line.stop ≤ stop) (columns : Int) (ahead : line.start ≤ position)
    (within : position ≤ line.text) (taken : Int) :
    passColumns (filled words stencil) (fillLine words stencil line) (place words stencil stop)
        columns (place words stencil stop - place words stencil position)
        (place words stencil position) taken =
      (place words stencil
          (passColumns stencil.drawn line stop columns (stop - position) position taken).1,
        (passColumns stencil.drawn line stop columns (stop - position) position taken).2) := by
  have mono : StrictMono (place words stencil) := place_strictMono inert
  have shows (mark : Char) (marked : isInert mark = false) (position : Nat) :
      (filled words stencil).has (place words stencil position) mark =
        stencil.drawn.has position mark := has_filled inert marked position
  induction within using Nat.decreasingInduction generalizing taken with
  | self =>
      rcases clear.lies.shows nonempty with ⟨c, shown, notSpace⟩
      have none {mark : Char} (space : isSpace mark = true) :
          stencil.drawn.has line.text mark = false := by
        rw [Source.has, shown, beq_eq_false_iff_ne]
        rintro ⟨⟩
        exact Bool.noConfusion (notSpace.symm.trans space)
      have noTab : stencil.drawn.has line.text '\t' = false := none (by decide)
      have noSpace : stencil.drawn.has line.text ' ' = false := none (by decide)
      have noMark : ¬ line.text - line.start < line.shift :=
        Nat.not_lt.mpr (Nat.add_sub_cancel_left _ _).ge
      rw [passColumns_of_text noTab noSpace (Nat.le_of_not_lt noMark),
        passColumns_of_text ((shows _ (by decide) _).trans noTab)
          ((shows _ (by decide) _).trans noSpace)
          (Nat.le_of_not_lt fun mark => noMark ((mark_fillLine inert stencil ahead).mp mark))]
  | of_succ position before inductionHypothesis =>
      have next : place words stencil (position + 1) = place words stencil position + 1 :=
        place_succ_of_not_isSlot
          (clear.bare proper position ahead (Nat.lt_succ_of_lt (Nat.lt_of_succ_le before)))
      have inside : position < stop := by
        have := clear.within
        omega
      have placed := mono inside
      have most : stop - position = stop - (position + 1) + 1 := by omega
      have most' : place words stencil stop - place words stencil position =
          place words stencil stop - place words stencil (position + 1) + 1 := by omega
      have behind := inductionHypothesis (Nat.le_succ_of_le ahead)
      rw [most, most', passColumns, passColumns, shows _ (by decide), shows _ (by decide), ← next]
      simp only [mark_fillLine inert stencil ahead, placed, inside]
      split
      · split
        · exact behind _
        · split
          · exact behind _
          · rfl
      · rfl

end Stencil
end Markup
end Crosslink

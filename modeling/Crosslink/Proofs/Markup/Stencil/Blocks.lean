import Mathlib.Data.List.DropRight
import Crosslink.Proofs.Markup.Definition
import Crosslink.Proofs.Markup.Stencil.Container
import Crosslink.Proofs.Markup.Stencil.Shown

namespace Crosslink
namespace Markup
namespace Stencil

/-!
The inline text of a block with slots.  A paragraph takes the columns of its containers off each of
its lines and is trimmed, a heading loses the marks at both of its ends; none of this touches a word
or what stands around it.  So each filled text has the inline text of its outline, filled.
-/

section Content

variable {words : Nat → Text} {stencil cells : Stencil} {number start stop : Nat} {line : Line}
  {frame : Frame}

/-! ## Trimming -/

/-- Drop blank letters at both ends. -/
def trim (cells : Stencil) : Stencil :=
  (cells.dropWhile blankCell).rdropWhile blankCell

theorem dropWhile_text (inert : Inert words) (cells : Stencil) :
    (text words cells).dropWhile isBlank = text words (cells.dropWhile blankCell) := by
  induction cells with
  | nil => rfl
  | cons cell rest inductionHypothesis =>
      cases cell with
      | letter c =>
          have whole : text words (.letter c :: rest) = c :: text words rest := rfl
          rw [whole]
          by_cases blank : isBlank c = true
          · have passes : blankCell (.letter c) = true := blank
            rw [List.dropWhile_cons_of_pos blank, inductionHypothesis,
              List.dropWhile_cons_of_pos passes]
          · have stays : ¬ blankCell (.letter c) = true := blank
            rw [List.dropWhile_cons_of_neg blank, List.dropWhile_cons_of_neg stays, whole]
      | slot number =>
          rw [List.dropWhile_cons_of_neg Bool.false_ne_true]
          rcases List.exists_cons_of_ne_nil (inert number).1 with ⟨c, word, begins⟩
          have plain := (inert number).2 c (begins ▸ List.mem_cons_self)
          have seen : ¬ isBlank c = true := by
            rw [isInert, Bool.and_eq_true, Bool.and_eq_true, Bool.not_eq_true'] at plain
            exact Bool.eq_false_iff.mp plain.1.2
          have whole : text words (.slot number :: rest) = c :: (word ++ text words rest) := by
            rw [text, List.flatMap_cons, Cell.fill, begins]
            rfl
          rw [whole, List.dropWhile_cons_of_neg seen]

theorem reverse_text (words : Nat → Text) (cells : Stencil) :
    (text words cells).reverse = text (fun number => (words number).reverse) cells.reverse := by
  rw [text, text, List.reverse_flatMap]
  refine List.flatMap_congr fun cell _ => ?_
  cases cell with
  | letter c => rfl
  | slot number => rfl

/-- Trimming does not come to a word. -/
theorem trim_text (inert : Inert words) (cells : Stencil) :
    (text words cells).trim = text words cells.trim := by
  have inertBack : Inert fun number => (words number).reverse := fun number =>
    ⟨mt List.reverse_eq_nil_iff.mp (inert number).1, fun c held =>
      (inert number).2 c (List.mem_reverse.mp held)⟩
  have back (cells : Stencil) :
      (text words cells).trimEnd = text words (cells.rdropWhile blankCell) :=
    calc (text words cells).trimEnd
      _ = ((text (fun number => (words number).reverse) cells.reverse).dropWhile isBlank).reverse := by
        rw [Text.trimEnd, Text.dropEndWhile, reverse_text]
      _ = text words (cells.rdropWhile blankCell) := by
        rw [dropWhile_text inertBack, reverse_text, List.rdropWhile]
        simp only [List.reverse_reverse]
  rw [Text.trim, Text.trimStart, dropWhile_text inert, back, trim]

theorem Blank.outline {blank : Stencil} (isBlank : Blank blank) :
    ∀ c ∈ blank.outline, Crosslink.isBlank c = true := by
  intro c held
  rcases List.mem_map.mp held with ⟨cell, inCells, rfl⟩
  have blankHere := isBlank cell inCells
  cases cell with
  | letter c => exact blankHere
  | slot number => cases blankHere

/-- Inline text stays inline text when it is trimmed, if its first line is not trimmed off. -/
theorem Shown.trim (shown : Shown stencil number cells)
    (begins : '\n' ∈ cells.outline → ∃ c ∈ Text.before '\n' cells.outline, isBlank c = false) :
    Shown stencil number cells.trim := by
  have whole : cells = cells.takeWhile blankCell ++
      (cells.trim ++ (cells.dropWhile blankCell).rtakeWhile blankCell) := by
    rw [Stencil.trim, List.rdropWhile_append_rtakeWhile, List.takeWhile_append_dropWhile]
  have blank : Blank (cells.takeWhile blankCell) := fun _ => List.mem_takeWhile_imp
  have blankAfter : Blank ((cells.dropWhile blankCell).rtakeWhile blankCell) := fun _ =>
    List.mem_rtakeWhile_imp
  refine (whole ▸ shown : Shown stencil number (_ ++ (_ ++ _))).of_append blank (fun broken => ?_)
    blankAfter
  have inFront : cells.outline = outline (cells.takeWhile blankCell) ++
      outline (cells.trim ++ (cells.dropWhile blankCell).rtakeWhile blankCell) := by
    rw [← outline_append, ← whole]
  rcases begins (inFront ▸ List.mem_append_left _ broken) with ⟨c, held, seen⟩
  rw [inFront, Text.before_append_of_mem _ broken] at held
  rw [blank.outline c (Text.mem_of_mem_before held)] at seen
  cases seen

/-! ## Lines -/

/-- What is left of a line, up to a position, without the columns of its containers. -/
def lineCells (stencil : Stencil) (line : Line) (columns : Int) (stop : Nat) : Stencil :=
  let passed := passColumns stencil.drawn line stop columns (stop - line.start) line.start 0
  List.replicate (passed.2 - columns).toNat (.letter ' ') ++ stencil.cut passed.1 stop

theorem outline_lineCells (stencil : Stencil) (line : Line) (columns : Int) (stop : Nat) :
    (lineCells stencil line columns stop).outline = line.content stencil.drawn columns stop := by
  rw [lineCells, Line.content]
  dsimp only
  rw [outline_append, between_drawn, outline, List.map_replicate]
  rfl

section Line

variable (proper : stencil.Proper) (clear : ClearLine stencil number line)
  (nonempty : line.text < line.stop)
include proper clear nonempty

theorem text_lineCells (inert : Inert words) (further : line.stop ≤ stop) (columns : Int) :
    (fillLine words stencil line).content (filled words stencil) columns (place words stencil stop) =
      text words (lineCells stencil line columns stop) := by
  have passed := passColumns_filled inert proper clear nonempty further columns (Nat.le_refl _)
    (Nat.le_add_right _ _) 0
  have within := clear.lies.passColumns_le nonempty stop columns (stop - line.start)
    (Nat.le_add_right _ _) 0
  rw [lineCells, Line.content]
  dsimp only
  have start : (fillLine words stencil line).start = place words stencil line.start := rfl
  rw [start, passed, between_filled (by omega), text_append]
  refine congrArg (· ++ _) ?_
  rw [text, List.flatMap_replicate]
  exact (List.flatten_replicate_singleton).symm

omit proper in
theorem exists_lineCells (columns : Int) (stop : Nat) :
    ∃ width position, line.start ≤ position ∧ position ≤ line.text ∧
      lineCells stencil line columns stop =
        List.replicate width (.letter ' ') ++ stencil.cut position stop :=
  ⟨_, _, le_passColumns stencil.drawn line stop columns _ _ _,
    clear.lies.passColumns_le nonempty stop columns _ (Nat.le_add_right _ _) _, rfl⟩

theorem shown_line {position : Nat} (ahead : line.start ≤ position) (within : position ≤ line.text) :
    Shown stencil number (stencil.cut position line.stop) ∧
      '\n' ∉ (stencil.cut position line.stop).outline := by
  have part : ClearPart stencil line position line.stop :=
    ⟨ahead, Nat.le_refl _, within.trans nonempty.le,
      fun place later before => absurd (before.trans_le within) (Nat.not_lt.mpr later),
      fun place later before => absurd before (Nat.not_lt.mpr later)⟩
  exact ⟨part.shown proper clear, part.not_mem_cut clear⟩

end Line

/-! ## Blocks -/

/-- What is left of several lines, before it is trimmed. -/
def blockCells (stencil : Stencil) (frame : Frame) (start stop : Nat) : Stencil :=
  ((List.range' start (stop - start)).map fun number =>
    lineCells stencil (frame.line number) frame.blockIndent
      (if number + 1 < stop then (frame.line number).stop + 1 else (frame.line number).stop)).flatten

theorem blockCells_last (ends : start + 1 = stop) :
    blockCells stencil frame start stop =
      lineCells stencil (frame.line start) frame.blockIndent (frame.line start).stop := by
  have single : stop - start = 1 := by omega
  rw [blockCells, single, List.range'_one, List.map_singleton, List.flatten_singleton,
    if_neg (by omega)]

theorem blockCells_succ (goesOn : start + 1 < stop) :
    blockCells stencil frame start stop =
      lineCells stencil (frame.line start) frame.blockIndent ((frame.line start).stop + 1) ++
        blockCells stencil frame (start + 1) stop := by
  have more : stop - start = stop - (start + 1) + 1 := by omega
  rw [blockCells, more, List.range'_succ, List.map_cons, List.flatten_cons, if_pos goesOn]
  rfl

theorem text_flatten (words : Nat → Text) (parts : List Stencil) :
    text words parts.flatten = (parts.map (text words)).flatten := by
  induction parts with
  | nil => rfl
  | cons part rest inductionHypothesis =>
      rw [List.flatten_cons, text_append, inductionHypothesis, List.map_cons, List.flatten_cons]

section Block

variable (proper : stencil.Proper) (clear : ClearFrame stencil frame)
include proper clear

theorem content_fill (inert : Inert words)
    (nonempty : ∀ number, start ≤ number → number < stop → (frame.line number).isEmpty = false) :
    (fillFrame words stencil frame).content start stop =
      text words (blockCells stencil frame start stop).trim := by
  rw [Frame.content, ← trim_text inert, blockCells, text_flatten, List.map_map]
  refine congrArg (fun lines => Text.trim (List.flatten lines)) ?_
  refine List.map_congr_left fun number listed => ?_
  have inside := List.mem_range'_1.mp listed
  have shows := nonempty number inside.1 (by omega)
  rw [Line.isEmpty, decide_eq_false_iff_not, Nat.not_le] at shows
  have next : place words stencil ((frame.line number).stop + 1) =
      place words stencil (frame.line number).stop + 1 :=
    place_succ_of_not_isSlot (clear.lines number).not_isSlot_stop
  dsimp only
  rw [line_fillFrame clear.source, source_fillFrame, blockIndent_fillFrame, stop_fillLine, ← next,
    ← apply_ite (place words stencil)]
  refine text_lineCells proper (clear.lines number) shows inert ?_ _
  split
  · exact Nat.le_succ _
  · exact Nat.le_refl _

/-- Several lines, none of them empty, are inline text. -/
theorem shown_blockCells (more : Nat) {start : Nat} (ends : start + more + 1 = stop)
    (nonempty : ∀ number, start ≤ number → number < stop → (frame.line number).isEmpty = false) :
    Shown stencil start (blockCells stencil frame start stop) := by
  have shows {number : Nat} (ahead : start ≤ number) (before : number < stop) :
      (frame.line number).text < (frame.line number).stop := by
    have shown := nonempty number ahead before
    rwa [Line.isEmpty, decide_eq_false_iff_not, Nat.not_le] at shown
  have here := shows (Nat.le_refl start) (by omega)
  have clearLine := clear.lines start
  induction more generalizing start with
  | zero =>
      rcases exists_lineCells clearLine here frame.blockIndent (frame.line start).stop with
        ⟨width, position, ahead, within, cells⟩
      rw [blockCells_last ends, cells]
      exact (shown_line proper clearLine here ahead within).1.spaces_append width
  | succ more inductionHypothesis =>
      have goesOn : start + 1 < stop := by omega
      have rest := inductionHypothesis (by omega) (fun number ahead => nonempty number (by omega))
        (fun ahead => shows (by omega)) (shows (Nat.le_succ start) goesOn) (clear.lines (start + 1))
      have breaks := clearLine.lies.breaks_of_next here (clear.lines (start + 1)).lies
        (shows (Nat.le_succ start) goesOn)
      rcases exists_lineCells clearLine here frame.blockIndent ((frame.line start).stop + 1) with
        ⟨width, position, ahead, within, cells⟩
      have broken : stencil.cut position ((frame.line start).stop + 1) =
          stencil.cut position (frame.line start).stop ++ [.letter '\n'] := by
        have held := letter_of_drawn breaks (by decide)
        rw [cut, List.take_add_one, held, List.drop_append_of_le_length]
        · rfl
        · rw [List.length_take_of_le clearLine.stop_le]
          exact within.trans here.le
      have line := shown_line proper clearLine here ahead within
      rw [blockCells_succ goesOn, cells, broken, List.append_assoc, List.append_assoc]
      exact (line.1.append_break line.2 rest).spaces_append width

/-- The inline text of a paragraph or of an underlined heading. -/
theorem shown_content (plainly : EndsPlainly stencil.outline) (ordered : start < stop)
    (nonempty : ∀ number, start ≤ number → number < stop → (frame.line number).isEmpty = false) :
    Shown stencil start (blockCells stencil frame start stop).trim := by
  rcases Nat.exists_eq_add_of_lt ordered with ⟨more, ends⟩
  have filled := Frame.filled_lines clear.lies more ends.symm nonempty
  have size : stop - start = more + 1 := by omega
  have lines : ((List.range' start (more + 1)).map fun number =>
        let line := frame.line number
        line.content frame.source frame.blockIndent
          (if number + 1 < stop then line.stop + 1 else line.stop)).flatten =
      (blockCells stencil frame start stop).outline := by
    rw [outline, blockCells, size, List.map_flatten, List.map_map]
    refine congrArg List.flatten (List.map_congr_left fun number _ => ?_)
    rw [clear.source]
    exact (outline_lineCells stencil (frame.line number) frame.blockIndent _).symm
  rw [lines, clear.source, toList_drawn] at filled
  exact (shown_blockCells proper clear more ends.symm nonempty).trim (filled.begins plainly)

/-- The inline text of a heading that is marked in front. -/
theorem shown_heading {range : Nat × Nat}
    (found : headingRange? frame number = some range) :
    Shown stencil number (stencil.cut range.1 range.2).trim := by
  rcases headingRange?_bounds clear found with ⟨ahead, ordered, within, marks, closing⟩
  have part : ClearPart stencil (frame.line number) range.1 range.2 := by
    refine ⟨(Nat.le_add_right _ _).trans ahead, within, ordered, fun place later before => ?_,
      fun place later before parenthesis => ?_⟩
    · have bare : ¬ stencil.IsSlot place := by
        rintro ⟨own, held⟩
        cases (drawn_of_slot held).symm.trans (marks place later before)
      exact ⟨'#', letter_of_bare bare (marks place later before), by decide⟩
    · rcases closing place later before with ⟨c, shown, spaced⟩
      cases (drawn_of_letter parenthesis).symm.trans shown
      rcases spaced with space | mark
      · cases space
      · cases mark
  have oneLine := part.not_mem_cut (clear.lines number)
  exact (part.shown proper (clear.lines number)).trim fun broken => absurd broken oneLine

end Block

end Content

/-!
## Blocks of a text with slots

The reader of blocks comes to the same line in every filled text and adds the same runs of inline
text, filled, as long as the document defines no labels; it does not matter how deep in containers
it is.
-/

variable {words : Nat → Text} {stencil : Stencil} {frame : Frame} {number stop : Nat}

/-- A run of inline text with slots. -/
structure Form where
  cells : Stencil
  /-- The number of the line it begins on, counted from zero. -/
  line : Nat

namespace Form

def leaf (words : Nat → Text) (form : Form) : Leaf where
  content := text words form.cells
  line := form.line

end Form

def addForms (words : Nat → Text) (forms : List Form) (document : Document) : Document :=
  { document with leaves := forms.map (Form.leaf words) ++ document.leaves }

theorem addForms_append (words : Nat → Text) (later earlier : List Form) (document : Document) :
    addForms words (later ++ earlier) document =
      addForms words later (addForms words earlier document) := by
  rw [addForms, List.map_append, List.append_assoc]
  rfl

/-- A way of reading comes to the same line whatever words fill the slots, and adds the same runs of
inline text, filled. -/
def Yields (stencil : Stencil) (read : (Nat → Text) → Document → Nat × Document) : Prop :=
  ∃ next forms, (∀ form ∈ forms, Shown stencil form.line form.cells) ∧
    ∀ words, Inert words → ∀ document, read words document = (next, addForms words forms document)

namespace Yields

variable {read : (Nat → Text) → Document → Nat × Document}

theorem quiet (stencil : Stencil) (next : Nat) : Yields stencil fun _ document => (next, document) :=
  ⟨next, [], fun _ member => absurd member List.not_mem_nil, fun _ _ _ => rfl⟩

theorem leaf {cells : Stencil} (shown : Shown stencil number cells) (next : Nat) :
    Yields stencil fun words document => (next, document.addLeaf (text words cells) number) := by
  refine ⟨next, [{ cells, line := number }], fun form member => ?_, fun _ _ _ => rfl⟩
  cases List.mem_singleton.mp member
  exact shown

theorem congr {read' : (Nat → Text) → Document → Nat × Document} (yields : Yields stencil read)
    (same : ∀ words, Inert words → ∀ document, read' words document = read words document) :
    Yields stencil read' := by
  rcases yields with ⟨next, forms, shown, reads⟩
  exact ⟨next, forms, shown, fun words inert document =>
    (same words inert document).trans (reads words inert document)⟩

theorem bind (yields : Yields stencil read)
    {further : Nat → (Nat → Text) → Document → Nat × Document}
    (later : ∀ next, Yields stencil (further next)) :
    Yields stencil fun words document =>
      further (read words document).1 words (read words document).2 := by
  rcases yields with ⟨next, forms, shown, reads⟩
  rcases later next with ⟨last, added, shownLater, readsLater⟩
  refine ⟨last, added ++ forms, fun form member => ?_, fun words inert document => ?_⟩
  · exact (List.mem_append.mp member).elim (shownLater form) (shown form)
  · dsimp only
    rw [reads words inert, readsLater words inert, addForms_append]

end Yields

/-- A reader of blocks that reads every filled text alike. -/
def ReadsEvenly (stencil : Stencil) (reader : Frame.Reader) : Prop :=
  ∀ frame number stop, ClearFrame stencil frame → stop ≤ frame.limit →
    Yields stencil fun words document => reader (fillFrame words stencil frame) number stop document

/-! ## Definitions -/

/-- No closing bracket of the stencil stands right in front of a colon. -/
def Undefining (stencil : Stencil) : Prop :=
  ∀ position, stencil[position]? = some (.letter ']') →
    stencil[position + 1]? ≠ some (.letter ':')

/-- A word stands behind a parenthesis, so its first letter stands behind no bracket. -/
theorem Proper.undefining_filled (proper : stencil.Proper) (inert : Inert words)
    (undefining : stencil.Undefining) : (filled words stencil).Undefining := by
  intro spot bracket colon
  have within : spot < place words stencil stencil.length := by
    rw [← size_filled]
    exact (Array.getElem?_eq_some_iff.mp bracket).1
  have ahead : place words stencil 0 ≤ spot := place_zero.trans_le (Nat.zero_le spot)
  rcases exists_cell ahead within (Nat.zero_le _) with
    ⟨position, _, inside, ahead, before⟩
  rw [filled, List.getElem?_toArray] at bracket colon
  rcases exists_of_cell inert ahead before inside with
    ⟨c, held, same, stands⟩ | ⟨_, c, _, stands, plain⟩
  · cases stands.symm.trans bracket
    have next : spot + 1 = place words stencil (position + 1) := by
      rw [place_succ_of_letter held, same]
    have bare := proper.not_isSlot_succ held (by decide)
    have shown : stencil.drawn[position + 1]? = some ':' := by
      rw [← getElem?_filled bare, ← next, filled, List.getElem?_toArray, colon]
    exact undefining position held (letter_of_bare bare shown)
  · cases stands.symm.trans bracket
    cases plain

theorem ClearFrame.parted_fill (clear : ClearFrame stencil frame) (inert : Inert words) :
    (fillFrame words stencil frame).Parted := by
  intro number nonempty nonemptyNext
  rw [isEmpty_fill inert clear] at nonempty nonemptyNext
  have breaks := clear.lies.parted number nonempty nonemptyNext
  rw [clear.source] at breaks
  rw [line_fillFrame clear.source, stop_fillLine, source_fillFrame,
    getElem?_filled (clear.lines number).not_isSlot_stop, breaks]

theorem definition?_fill (proper : stencil.Proper) (inert : Inert words)
    (undefining : stencil.Undefining) (clear : ClearFrame stencil frame)
    (nonempty : (frame.line number).isEmpty = false) :
    (fillFrame words stencil frame).definition? number = none :=
  Frame.definition?_eq_none (proper.undefining_filled inert undefining) (clear.parted_fill inert)
    ((isEmpty_fill inert clear).trans nonempty)

/-! ## Readers -/

@[simp] theorem limit_fillFrame (words : Nat → Text) (stencil : Stencil) (frame : Frame) :
    (fillFrame words stencil frame).limit = frame.limit :=
  rfl

/-- The outline is a filled text. -/
theorem inert_letter : Inert fun _ => ['x'] :=
  fun _ => ⟨List.cons_ne_nil _ _, fun _ held => List.mem_singleton.mp held ▸ isInert_x⟩

theorem readBlocks_yields {block : Frame.Reader}
    (reads : ∀ frame number stop, ClearFrame stencil frame → stop ≤ frame.limit → number < stop →
      (frame.line number).isEmpty = false →
      Yields stencil fun words document =>
        block (fillFrame words stencil frame) number stop document)
    (clear : ClearFrame stencil frame) (bounded : stop ≤ frame.limit) (most : Nat) :
    Yields stencil fun words document =>
      Frame.readBlocks block (fillFrame words stencil frame) stop most number document := by
  induction most generalizing number with
  | zero => exact .quiet stencil number
  | succ most inductionHypothesis =>
      rcases Nat.lt_or_ge number stop with inside | beyond
      · have start : Yields stencil fun words document =>
            let start := frame.passEmpty (frame.limit - number) number
            if stop ≤ start || frame.isOutdented start then (start, document)
            else
              let result := block (fillFrame words stencil frame) start stop document
              Frame.readBlocks block (fillFrame words stencil frame) stop most
                (if result.1 < stop && (frame.line result.1).isEmpty then result.1 + 1
                  else result.1) result.2 := by
          dsimp only
          split
          · exact .quiet stencil _
          · next goesOn =>
              rw [Bool.or_eq_true, not_or, decide_eq_true_iff] at goesOn
              have before := Nat.lt_of_not_le goesOn.1
              have nonempty := frame.nonempty_passEmpty (frame.limit - number) number (by omega)
                (before.trans_le bounded)
              have others (next : Nat) : Yields stencil fun words document =>
                  Frame.readBlocks block (fillFrame words stencil frame) stop most
                    (if next < stop && (frame.line next).isEmpty then next + 1 else next) document :=
                inductionHypothesis
              exact (reads frame _ stop clear bounded before nonempty).bind others
        refine start.congr fun words inert document => ?_
        rw [Frame.readBlocks, if_neg (Nat.not_le.mpr inside), limit_fillFrame,
          passEmpty_fill inert clear]
        dsimp only
        rw [isOutdented_fill clear, isEmpty_fill inert clear]
      · refine (Yields.quiet stencil number).congr fun words _ document => ?_
        rw [Frame.readBlocks, if_pos beyond]

section Readers

variable (proper : stencil.Proper) {insideQuote inside : Frame.Reader}
include proper

theorem items_yields (evenly : ReadsEvenly stencil inside) (clear : ClearFrame stencil frame)
    (bounded : stop ≤ frame.limit) (most : Nat) {marker : Frame.Marker}
    (lies : MarkerLies stencil (frame.line number) marker) :
    Yields stencil fun words document =>
      Frame.items inside (fillFrame words stencil frame) stop most number
        (fillMarker words stencil marker) document := by
  induction most generalizing number marker with
  | zero => exact .quiet stencil number
  | succ most inductionHypothesis =>
      have clearInner := (insideItem_fill proper inert_letter clear lies).1
      have item : Yields stencil fun words document =>
          if (frame.insideItem number marker).2 &&
              ((frame.insideItem number marker).1.line (number + 1)).isEmpty then
            (min (number + 2) stop, document)
          else inside (fillFrame words stencil (frame.insideItem number marker).1) number stop
            document := by
        split
        · exact .quiet stencil _
        · exact evenly _ number stop clearInner bounded
      have others (next : Nat) : Yields stencil fun words document =>
          if stop ≤ next then (next, document)
          else (frame.nextMarker? marker next).elim (next, document) fun following =>
            Frame.items inside (fillFrame words stencil frame) stop most next
              (fillMarker words stencil following) document := by
        split
        · exact .quiet stencil next
        · cases found : frame.nextMarker? marker next with
          | none => exact .quiet stencil next
          | some following =>
              exact inductionHypothesis (markerLies_of_nextMarker? proper clear found)
      refine (item.bind others).congr fun words inert document => ?_
      rw [Frame.items, (insideItem_fill proper inert clear lies).2]
      dsimp only
      rw [isEmpty_fill inert clearInner]
      -- What is behind the item depends on the outline alone, wherever the item ends.
      generalize (if (frame.insideItem number marker).2 &&
          ((frame.insideItem number marker).1.line (number + 1)).isEmpty then _ else _) = first
      rw [nextMarker?_fill proper inert clear]
      cases frame.nextMarker? marker first.1 with
      | none => rfl
      | some following => rfl

variable (plainly : EndsPlainly stencil.outline)
include plainly

/-- What the text of a block is, once it is known that no other block begins. -/
theorem leaf_yields (clear : ClearFrame stencil frame)
    (nonempty : (frame.line number).isEmpty = false) (stop : Nat) :
    Yields stencil fun words document =>
      let filled := fillFrame words stencil frame
      match filled.heading? number with
      | some content => (number + 1, document.addLeaf content number)
      | none =>
      match filled.underline? stop (stop - number) (number + 1) with
      | some underline =>
        (underline + 1, document.addLeaf (filled.content number underline) number)
      | none =>
        let next := filled.paragraphEnd (filled.limit - number) (number + 1)
        (next, document.addLeaf (filled.content number next) number) := by
  have behind {next : Nat}
      (further : ∀ line, number + 1 ≤ line → line < next → (frame.line line).isEmpty = false) :
      ∀ line, number ≤ line → line < next → (frame.line line).isEmpty = false := by
    intro line ahead before
    rcases Nat.eq_or_lt_of_le ahead with rfl | later
    · exact nonempty
    · exact further line later before
  cases heading : headingRange? frame number with
  | some range =>
      refine (Yields.leaf (shown_heading proper clear heading) (number + 1)).congr
        fun words inert document => ?_
      dsimp only
      rw [heading?_fill proper inert clear, heading, ← trim_text inert]
      rfl
  | none =>
      cases underlined : frame.underline? stop (stop - number) (number + 1) with
      | some underline =>
          have ahead := frame.le_of_underline? underlined
          have lines := behind fun _ => frame.nonempty_of_lt_underline? underlined
          refine (Yields.leaf (shown_content proper clear plainly ahead lines) (underline + 1)).congr
            fun words inert document => ?_
          dsimp only
          rw [heading?_fill proper inert clear, heading, underline?_fill proper inert clear,
            underlined]
          dsimp only [Option.map_none]
          rw [content_fill proper clear inert lines]
      | none =>
          have ahead := frame.le_paragraphEnd (frame.limit - number) (number + 1)
          have lines : ∀ line, number ≤ line →
              line < frame.paragraphEnd (frame.limit - number) (number + 1) →
                (frame.line line).isEmpty = false :=
            behind fun _ => frame.nonempty_of_lt_paragraphEnd
          refine (Yields.leaf (shown_content proper clear plainly ahead lines)
            (frame.paragraphEnd (frame.limit - number) (number + 1))).congr
              fun words inert document => ?_
          dsimp only
          rw [heading?_fill proper inert clear, heading, underline?_fill proper inert clear,
            underlined, limit_fillFrame, paragraphEnd_fill proper inert clear]
          dsimp only [Option.map_none]
          rw [content_fill proper clear inert lines]

variable (undefining : stencil.Undefining)
include undefining

theorem readBlock_yields (evenlyQuote : ReadsEvenly stencil insideQuote)
    (evenly : ReadsEvenly stencil inside) (clear : ClearFrame stencil frame)
    (bounded : stop ≤ frame.limit) (before : number < stop)
    (nonempty : (frame.line number).isEmpty = false) :
    Yields stencil fun words document =>
      Frame.readBlock insideQuote inside (fillFrame words stencil frame) number stop document := by
  -- One case for each kind of block, in the order in which they are tried.
  cases code : frame.isCode number with
  | true =>
      refine (Yields.quiet stencil
        (frame.codeEnd stop (stop - number) (number + 1) (number + 1))).congr
          fun words inert document => ?_
      rw [Frame.readBlock, isCode_fill clear, code, codeEnd_fill inert clear]
      rfl
  | false =>
  have uncoded (words : Nat → Text) : (fillFrame words stencil frame).isCode number = false :=
    (isCode_fill clear).trans code
  cases fence : frame.fence? number with
  | some opening =>
      refine (Yields.quiet stencil
        (frame.fenceEnd opening.1 opening.2 stop (stop - number) (number + 1))).congr
          fun words inert document => ?_
      rw [Frame.readBlock, uncoded, fence?_fill proper inert clear, fence]
      exact congrArg (·, document) (fenceEnd_fill proper inert clear (ne_of_fence? fence) _ _ _)
  | none =>
  have unfenced {words : Nat → Text} (inert : Inert words) :
      (fillFrame words stencil frame).fence? number = none :=
    (fence?_fill proper inert clear).trans fence
  cases quote : frame.isQuote number with
  | true =>
      have first : frame.first? number = some '>' :=
        beq_iff_eq.mp (Bool.and_eq_true_iff.mp quote).2
      have quoted := clear.setLine (clearLine_unquoted proper clear first)
      have lines {words : Nat → Text} (inert : Inert words) :=
        @quotation_fill words _ _ _ (number + 1) proper inert clear quoted stop (stop - number)
          (frame.unquoted number).isEmpty
      have clearInner := (lines inert_letter).1
      have bounds := @Frame.le_limit_quotation frame stop (stop - number) (number + 1)
        (frame.unquoted number).isEmpty (frame.setLine number (frame.unquoted number)) before bounded
      refine (evenlyQuote { (frame.quotation stop (stop - number) (number + 1)
          (frame.unquoted number).isEmpty (frame.setLine number (frame.unquoted number))).1 with
            blockIndent := 0 } number _ ⟨clearInner.source, clearInner.lines⟩ bounds).congr
              fun words inert document => ?_
      rw [Frame.readBlock, uncoded, unfenced inert, isQuote_fill proper inert clear, quote,
        ← fillLine_unquoted proper clear first inert]
      dsimp only
      rw [← fillFrame_setLine, isEmpty_fillLine inert, (lines inert).2]
      rfl
  | false =>
  have unquoted {words : Nat → Text} (inert : Inert words) :
      (fillFrame words stencil frame).isQuote number = false :=
    (isQuote_fill proper inert clear).trans quote
  cases rule : frame.isRule number with
  | true =>
      refine (Yields.quiet stencil (number + 1)).congr fun words inert document => ?_
      rw [Frame.readBlock, uncoded, unfenced inert, unquoted inert,
        isRule_fill proper inert clear, rule]
      rfl
  | false =>
  have unruled {words : Nat → Text} (inert : Inert words) :
      (fillFrame words stencil frame).isRule number = false :=
    (isRule_fill proper inert clear).trans rule
  cases list : frame.list? number with
  | some marker =>
      refine (items_yields proper evenly clear bounded (stop - number + 1)
        (markerLies_of_list? proper clear list)).congr fun words inert document => ?_
      rw [Frame.readBlock, uncoded, unfenced inert, unquoted inert, unruled inert,
        list?_fill proper inert clear, list]
      rfl
  | none =>
      refine (leaf_yields proper plainly clear nonempty stop).congr fun words inert document => ?_
      have unlisted : (fillFrame words stencil frame).list? number = none := by
        rw [list?_fill proper inert clear, list, Option.map_none]
      have undefined : (fillFrame words stencil frame).definition? number = none :=
        definition?_fill proper inert undefining clear nonempty
      rw [Frame.readBlock, uncoded, unfenced inert, unquoted inert, unruled inert, unlisted,
        undefined, (html?_fill proper inert clear).2]
      rfl

/-- However deep containers are looked into, every filled text is read alike. -/
theorem read_evenly (levels : Nat) : ReadsEvenly stencil (Frame.read levels) := by
  induction levels using Nat.strongRecOn with
  | _ levels inductionHypothesis =>
      intro frame number stop clear bounded
      match levels with
      | 0 =>
          exact readBlocks_yields
            (fun _ _ stop _ _ _ _ => .quiet stencil stop) clear bounded _
      | 1 =>
          have deeper := inductionHypothesis 0 (by decide)
          exact readBlocks_yields
            (fun _ _ _ => readBlock_yields proper plainly undefining deeper deeper) clear bounded _
      | levels + 2 =>
          exact readBlocks_yields
            (fun _ _ _ => readBlock_yields proper plainly undefining
              (inductionHypothesis (levels + 1) (by omega)) (inductionHypothesis levels (by omega)))
            clear bounded _

end Readers

end Stencil
end Markup
end Crosslink

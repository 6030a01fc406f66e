import Crosslink.Proofs.Markup.Frame
import Crosslink.Proofs.Text.Occurrence

namespace Crosslink
namespace Markup

/-!
What the text of a block spells.  The visible characters of a block stand in the document, each on
the line that the line breaks of the block lead to, and what follows there is what follows in the
block.  Trimming may take whole lines off the front of a block, since a line of other blanks than
spaces and tabs is not empty for the reader of blocks; a document that has only spaces and tabs at
the ends of its lines begins each block on the line that it is reported on.
-/

/-- What can be seen of the text stands in the document, on lines that follow one another from
the given one on. -/
def Spells (document : Text) (number : Nat) (text : Text) : Prop :=
  ∀ place c, text[place]? = some c → isBlank c = false → ∃ position,
    (document.take position).count '\n' = number + (text.take place).count '\n' ∧
      Text.before '\n' (text.drop place) <+: document.drop position

/-- Blanks at the end of a line are spaces and tabs. -/
def EndsPlainly (document : Text) : Prop :=
  ∀ position, (∀ c ∈ Text.before '\n' (document.drop position), isBlank c = true) →
    ∀ c ∈ Text.before '\n' (document.drop position), isSpace c = true

namespace Spells

variable {document : Text} {number : Nat}

/-- What is trimmed off the front is counted by its line breaks. -/
theorem of_append {front inner back : Text}
    (spells : Spells document number (front ++ (inner ++ back))) :
    Spells document (number + front.count '\n') inner := by
  intro place c held seen
  have inside := (List.getElem?_eq_some_iff.mp held).1
  have found : (front ++ (inner ++ back))[front.length + place]? = some c := by
    rw [List.getElem?_append_right (Nat.le_add_right _ _), Nat.add_sub_cancel_left,
      List.getElem?_append_left inside, held]
  rcases spells _ c found seen with ⟨position, counted, stands⟩
  rw [List.take_length_add_append, List.count_append, List.take_append_of_le_length inside.le,
    ← Nat.add_assoc] at counted
  rw [List.drop_length_add_append] at stands
  refine ⟨position, counted, (Text.isPrefix_before '\n' ?_).trans stands⟩
  exact Text.drop_prefix_drop (List.prefix_append inner back) place

theorem blank_append {front text : Text} (spells : Spells document number text)
    (blank : ∀ c ∈ front, isBlank c = true) (oneLine : '\n' ∉ front) :
    Spells document number (front ++ text) := by
  intro place c held seen
  rcases Nat.lt_or_ge place front.length with before | behind
  · rw [List.getElem?_append_left before] at held
    rw [blank c (List.mem_of_getElem? held)] at seen
    cases seen
  · rcases Nat.exists_eq_add_of_le behind with ⟨inset, rfl⟩
    rw [List.getElem?_append_right behind, Nat.add_sub_cancel_left] at held
    rw [List.take_length_add_append, List.count_append, List.count_eq_zero.mpr oneLine,
      Nat.zero_add, List.drop_length_add_append]
    exact spells inset c held seen

theorem append_break {line rest : Text} (spells : Spells document number line)
    (oneLine : '\n' ∉ line) (later : Spells document (number + 1) rest) :
    Spells document number (line ++ '\n' :: rest) := by
  intro place c held seen
  rcases Nat.lt_or_ge place line.length with before | behind
  · rw [List.getElem?_append_left before] at held
    rcases spells place c held seen with ⟨position, counted, stands⟩
    have inDrop : '\n' ∉ line.drop place := fun member => oneLine (List.mem_of_mem_drop member)
    refine ⟨position, ?_, ?_⟩
    · rwa [List.take_append_of_le_length before.le]
    · rwa [List.drop_append_of_le_length before.le, Text.before_append _ inDrop,
        Text.before_cons_self, List.append_nil, ← Text.before_of_not_mem inDrop]
  · rcases Nat.exists_eq_add_of_le behind with ⟨inset, rfl⟩
    rw [List.getElem?_append_right behind, Nat.add_sub_cancel_left] at held
    rw [List.take_length_add_append, List.count_append, List.count_eq_zero.mpr oneLine,
      Nat.zero_add, List.drop_length_add_append]
    cases inset with
    | zero =>
        cases held
        exact absurd seen (by decide)
    | succ inset =>
        rcases later inset c held seen with ⟨position, counted, stands⟩
        refine ⟨position, ?_, stands⟩
        rw [counted, List.take_succ_cons, List.count_cons_self]
        omega

end Spells

/-! ## Lines -/

namespace Line.Lies

variable {source : Source} {number : Nat} {line : Line}

theorem spells_between (lies : line.Lies source number) {start stop : Nat}
    (ahead : line.start ≤ start) (within : stop ≤ line.stop) :
    Spells source.toList number (source.between start stop) := by
  intro place c held seen
  have oneLine := (lies.flat.mono ahead within).not_mem_between
  rw [Source.between_eq] at held oneLine ⊢
  have inside : start + place < stop := by
    rw [List.getElem?_drop, List.getElem?_take] at held
    split at held
    · next inside => exact inside
    · cases held
  refine ⟨start + place, ?_, ?_⟩
  · rw [lies.numbered _ (ahead.trans (Nat.le_add_right _ _)) (inside.trans_le within),
      List.count_eq_zero.mpr fun member => oneLine (List.mem_of_mem_take member), Nat.add_zero]
  · rw [Text.before_of_not_mem fun member => oneLine (List.mem_of_mem_drop member), List.drop_drop]
    exact Text.drop_prefix_drop (List.take_prefix stop _) _

theorem passColumns_le (lies : line.Lies source number) (nonempty : line.text < line.stop)
    (stop : Nat) (columns : Int) (most : Nat) {position : Nat} (ahead : position ≤ line.text)
    (taken : Int) : (passColumns source line stop columns most position taken).1 ≤ line.text := by
  rcases lies.shows nonempty with ⟨c, held, notSpace⟩
  rw [isSpace, Bool.or_eq_false_iff, decide_eq_false_iff_not, decide_eq_false_iff_not] at notSpace
  have elsewhere {position : Nat} {d : Char} (found : source.has position d = true)
      (other : c ≠ d) : position ≠ line.text := by
    rintro rfl
    rw [Source.has_iff, held] at found
    exact other (Option.some.inj found)
  induction most generalizing position taken with
  | zero => exact ahead
  | succ most inductionHypothesis =>
      rw [passColumns]
      split
      · split
        · next tab =>
            exact inductionHypothesis (Nat.lt_of_le_of_ne ahead (elsewhere tab notSpace.2)) _
        · split
          · next passes =>
              refine inductionHypothesis (Nat.lt_of_le_of_ne ahead ?_) _
              rcases Bool.or_eq_true_iff.mp passes with blank | marked
              · exact elsewhere blank notSpace.1
              · rintro rfl
                rw [decide_eq_true_iff, Line.text] at marked
                omega
          · exact ahead
      · exact ahead

/-- The text of a line is what stands on it from its own text on, or from further in front, behind
what is left of a tab. -/
theorem exists_content (lies : line.Lies source number) (nonempty : line.text < line.stop)
    (columns : Int) (stop : Nat) :
    ∃ width position, line.start ≤ position ∧ position ≤ line.text ∧
      line.content source columns stop =
        List.replicate width ' ' ++ source.between position stop :=
  ⟨_, _, le_passColumns source line stop columns _ _ _,
    lies.passColumns_le nonempty stop columns _ (Nat.le_add_right _ _) _, rfl⟩

theorem between_succ {start : Nat} (breaks : source[line.stop]? = some '\n')
    (ahead : start ≤ line.stop) :
    source.between start (line.stop + 1) = source.between start line.stop ++ ['\n'] := by
  have size := (Array.getElem?_eq_some_iff.mp breaks).1
  rw [Source.between_eq, Source.between_eq, List.take_add_one, List.drop_append_of_le_length,
    Array.getElem?_toList, breaks, Option.toList_some]
  rw [List.length_take, Array.length_toList]
  omega

/-- Something of a line can be seen, from its text on or from further in front, if blanks at its
end are spaces and tabs. -/
theorem visible_between (lies : line.Lies source number) (nonempty : line.text < line.stop)
    (plainly : EndsPlainly source.toList) {start : Nat} (ahead : line.start ≤ start)
    (within : start ≤ line.text) : ∃ c ∈ source.between start line.stop, isBlank c = false := by
  by_contra unseen
  have oneLine := (lies.flat.mono ahead (Nat.le_refl _)).not_mem_between
  have whole : Text.before '\n' (source.toList.drop start) = source.between start line.stop := by
    have cut : source.toList.drop start =
        source.between start line.stop ++ source.toList.drop line.stop := by
      rw [Source.between_eq]
      conv => lhs; rw [← List.take_append_drop line.stop source.toList]
      rw [List.drop_append_of_le_length]
      rw [List.length_take, Array.length_toList]
      have := lies.le_size
      omega
    rw [cut, Text.before_append _ oneLine]
    rcases lies.ends with breaks | last
    · rw [← Array.getElem?_toList] at breaks
      rcases List.getElem?_eq_some_iff.mp breaks with ⟨inside, here⟩
      rw [List.drop_eq_getElem_cons inside, here, Text.before_cons_self, List.append_nil]
    · rw [last, List.drop_eq_nil_of_le (by simp)]
      exact List.append_nil _
  have blank : ∀ c ∈ source.between start line.stop, isBlank c = true :=
    fun c held => Bool.of_not_eq_false fun seen => unseen ⟨c, held, seen⟩
  have spaces := plainly start (whole ▸ blank)
  rw [whole] at spaces
  rcases lies.shows nonempty with ⟨c, held, notSpace⟩
  have inLine : (source.between start line.stop)[line.text - start]? = some c := by
    rw [Source.between_eq, List.getElem?_drop, Nat.add_sub_cancel' within,
      List.getElem?_take_of_lt nonempty, Array.getElem?_toList, held]
  rw [spaces c (List.mem_of_getElem? inLine)] at notSpace
  cases notSpace

end Line.Lies

/-! ## Blocks -/

/-- The text of a leaf is taken from the document: no other character stands in it but spaces, and
it spells what stands on its lines, behind those that were trimmed off. -/
structure Leaf.Spelled (document : Text) (leaf : Leaf) : Prop where
  chars : ∀ c ∈ leaf.content, c = ' ' ∨ c ∈ document
  spells : ∃ skipped, (EndsPlainly document → skipped = 0) ∧
    Spells document (leaf.line + skipped) leaf.content

/-- The text of a block before it is trimmed, with the line that it begins on. -/
structure Filled (document : Text) (number : Nat) (text : Text) : Prop where
  chars : ∀ c ∈ text, c = ' ' ∨ c ∈ document
  spells : Spells document number text
  /-- The first line is not trimmed off altogether. -/
  begins : EndsPlainly document → '\n' ∈ text → ∃ c ∈ Text.before '\n' text, isBlank c = false

namespace Filled

variable {document text : Text} {number : Nat}

theorem blank_append (filled : Filled document number text) (width : Nat) :
    Filled document number (List.replicate width ' ' ++ text) := by
  have oneLine : '\n' ∉ List.replicate width ' ' := fun held =>
    absurd (List.eq_of_mem_replicate held) (by decide)
  refine ⟨fun c held => ?_, filled.spells.blank_append (fun c held => ?_) oneLine,
    fun plainly broken => ?_⟩
  · rcases List.mem_append.mp held with space | inText
    · exact .inl (List.eq_of_mem_replicate space)
    · exact filled.chars c inText
  · rw [List.eq_of_mem_replicate held]
    decide
  · rcases filled.begins plainly ((List.mem_append.mp broken).resolve_left oneLine) with
      ⟨c, held, seen⟩
    rw [Text.before_append _ oneLine]
    exact ⟨c, List.mem_append_right _ held, seen⟩

theorem append_break {rest : Text} (filled : Filled document number text) (oneLine : '\n' ∉ text)
    (breaks : '\n' ∈ document) (seen : EndsPlainly document → ∃ c ∈ text, isBlank c = false)
    (later : Filled document (number + 1) rest) :
    Filled document number (text ++ '\n' :: rest) where
  chars c held := by
    rcases List.mem_append.mp held with inText | behind
    · exact filled.chars c inText
    · rcases List.mem_cons.mp behind with rfl | inRest
      · exact .inr breaks
      · exact later.chars c inRest
  spells := filled.spells.append_break oneLine later.spells
  begins plainly _ := by
    rcases seen plainly with ⟨c, held, shown⟩
    rw [Text.before_append _ oneLine]
    exact ⟨c, List.mem_append_left _ held, shown⟩

theorem trim (filled : Filled document number text) :
    Leaf.Spelled document { content := text.trim, line := number } := by
  rcases Text.exists_trim_append text with ⟨front, back, whole, blank⟩
  refine ⟨fun c held => filled.chars c ((Frame.trim_sublist text).subset held),
    front.count '\n', fun plainly => List.count_eq_zero.mpr fun broken => ?_, ?_⟩
  · have inText : '\n' ∈ text := whole ▸ List.mem_append_left _ broken
    rcases filled.begins plainly inText with ⟨c, held, seen⟩
    rw [whole, Text.before_append_of_mem _ broken] at held
    rw [blank c (Text.mem_of_mem_before held)] at seen
    cases seen
  · exact (whole ▸ filled.spells : Spells document number (front ++ (text.trim ++ back))).of_append

end Filled

namespace Line.Lies

variable {source : Source} {number : Nat} {line : Line}

theorem filled_between (lies : line.Lies source number) {start stop : Nat}
    (ahead : line.start ≤ start) (within : stop ≤ line.stop) :
    Filled source.toList number (source.between start stop) where
  chars c held := by
    rw [Source.between_eq] at held
    exact .inr (List.mem_of_mem_take (List.mem_of_mem_drop held))
  spells := lies.spells_between ahead within
  begins _ broken := absurd broken (lies.flat.mono ahead within).not_mem_between

/-- Behind a line that another one follows stands a line break. -/
theorem breaks_of_next (lies : line.Lies source number) (nonempty : line.text < line.stop)
    {next : Line} (liesNext : next.Lies source (number + 1)) (nonemptyNext : next.text < next.stop) :
    source[line.stop]? = some '\n' := by
  rcases lies.ends with breaks | last
  · exact breaks
  · have here := lies.numbered line.text (Nat.le_add_right _ _) nonempty
    have there := liesNext.numbered next.text (Nat.le_add_right _ _) nonemptyNext
    have whole := (lies.flat.mono (Nat.le_add_right _ line.shift) (Nat.le_refl _)).count_take
      nonempty.le (Nat.le_refl _)
    rw [last, ← Array.length_toList, List.take_length] at whole
    have less := (List.take_sublist next.text source.toList).count_le '\n'
    rw [← Line.text, here] at whole
    omega

end Line.Lies

namespace Frame

variable {frame : Frame}

theorem filled_lines (lies : frame.Lies) {stop : Nat} (more : Nat) {start : Nat}
    (ends : start + more + 1 = stop)
    (nonempty : ∀ number, start ≤ number → number < stop → (frame.line number).isEmpty = false) :
    Filled frame.source.toList start
      (((List.range' start (more + 1)).map fun number =>
        let line := frame.line number
        line.content frame.source frame.blockIndent
          (if number + 1 < stop then line.stop + 1 else line.stop)).flatten) := by
  have filled {number : Nat} (ahead : start ≤ number) (before : number < stop) :
      (frame.line number).text < (frame.line number).stop := by
    have := nonempty number ahead before
    rwa [Line.isEmpty, decide_eq_false_iff_not, Nat.not_le] at this
  have here := filled (Nat.le_refl start) (by omega)
  have lies_here := lies start
  induction more generalizing start with
  | zero =>
      rcases lies_here.exists_content here frame.blockIndent (frame.line start).stop with
        ⟨width, position, ahead, _, content⟩
      rw [List.range'_succ, List.range'_zero, List.map_singleton, List.flatten_singleton]
      dsimp only
      rw [if_neg (by omega), content]
      exact (lies_here.filled_between ahead (Nat.le_refl _)).blank_append width
  | succ more inductionHypothesis =>
      have next : start + 1 < stop := by omega
      have rest := inductionHypothesis (by omega) (fun number ahead => nonempty number (by omega))
        (fun ahead => filled (by omega)) (filled (Nat.le_succ start) next) (lies (start + 1))
      have breaks := lies_here.breaks_of_next here (lies (start + 1))
        (filled (Nat.le_succ start) next)
      rcases lies_here.exists_content here frame.blockIndent ((frame.line start).stop + 1) with
        ⟨width, position, ahead, within, content⟩
      have flat := (lies_here.flat.mono ahead (Nat.le_refl _)).not_mem_between
      rw [List.range'_succ, List.map_cons, List.flatten_cons]
      dsimp only
      rw [if_pos next, content, Line.Lies.between_succ breaks (within.trans here.le),
        List.append_assoc, List.append_assoc]
      refine .blank_append ?_ width
      exact (lies_here.filled_between ahead (Nat.le_refl _)).append_break flat
        (Array.mem_toList_iff.mpr (Array.mem_of_getElem? breaks))
        (fun plainly => lies_here.visible_between here plainly ahead within) rest

theorem spelled_content (lies : frame.Lies) {start stop : Nat} (ordered : start < stop)
    (nonempty : ∀ number, start ≤ number → number < stop → (frame.line number).isEmpty = false) :
    Leaf.Spelled frame.source.toList { content := frame.content start stop, line := start } := by
  rcases Nat.exists_eq_add_of_lt ordered with ⟨more, rfl⟩
  have size : start + more + 1 - start = more + 1 := by omega
  rw [content, size]
  exact (filled_lines lies more rfl nonempty).trim

theorem spelled_heading (lies : frame.Lies) {number : Nat} {content : Text}
    (found : frame.heading? number = some content) :
    Leaf.Spelled frame.source.toList { content, line := number } := by
  unfold heading? at found
  dsimp only at found
  split at found
  · cases found
  · split at found
    · cases found
    · cases found
      refine ((lies number).filled_between ?_ ?_).trim
      · exact (Nat.le_add_right _ _).trans (Source.le_pass _ _)
      · split
        · exact (Source.passBack_le _ _).trans (Source.passBack_le _ _)
        · exact Source.passBack_le _ _

end Frame

end Markup
end Crosslink

import Crosslink.Proofs.Markup.Spelling

namespace Crosslink
namespace Markup

/-!
The leaves of a document lie behind one another and spell what stands on their lines.  Every
reader goes forward over the lines, and the text of a leaf holds no more line breaks than its
block has lines behind the first.  So no two leaves share a line, whatever containers they stand
in.
-/

/-! ## Where blocks end -/

namespace Frame

variable (frame : Frame)

theorem le_passEmpty (most number : Nat) : number ≤ frame.passEmpty most number := by
  induction most generalizing number with
  | zero => exact Nat.le_refl number
  | succ most inductionHypothesis =>
      rw [passEmpty]
      split
      · exact (Nat.le_succ number).trans (inductionHypothesis _)
      · exact Nat.le_refl number

theorem nonempty_passEmpty (most number : Nat) (reaches : frame.limit ≤ number + most)
    (before : frame.passEmpty most number < frame.limit) :
    (frame.line (frame.passEmpty most number)).isEmpty = false := by
  induction most generalizing number with
  | zero =>
      rw [passEmpty] at before
      omega
  | succ most inductionHypothesis =>
      rw [passEmpty] at before ⊢
      split at before
      · next passes =>
          rw [if_pos passes]
          exact inductionHypothesis (number + 1) (by omega) before
      · next stays =>
          rw [if_neg stays]
          rw [Bool.and_eq_true, decide_eq_true_iff, not_and, Bool.not_eq_true] at stays
          exact stays before

theorem le_codeEnd {stop most number last : Nat} (ahead : last ≤ number) :
    last ≤ frame.codeEnd stop most number last := by
  induction most generalizing number last with
  | zero => exact Nat.le_refl last
  | succ most inductionHypothesis =>
      rw [codeEnd]
      split
      · exact Nat.le_refl last
      · split
        · exact inductionHypothesis (ahead.trans (Nat.le_succ number))
        · split
          · exact (ahead.trans (Nat.le_succ number)).trans (inductionHypothesis (Nat.le_refl _))
          · exact Nat.le_refl last

theorem le_fenceEnd (mark : Char) (length stop most number : Nat) :
    number ≤ frame.fenceEnd mark length stop most number := by
  induction most generalizing number with
  | zero => exact Nat.le_refl number
  | succ most inductionHypothesis =>
      rw [fenceEnd]
      split
      · exact Nat.le_refl number
      · split
        · exact Nat.le_refl number
        · split
          · exact Nat.le_refl number
          · split
            · exact Nat.le_succ number
            · exact (Nat.le_succ number).trans (inductionHypothesis _)

theorem le_htmlEnd (opening : HtmlOpening) (stop most number : Nat) :
    number ≤ frame.htmlEnd opening stop most number := by
  induction most generalizing number with
  | zero => exact Nat.le_refl number
  | succ most inductionHypothesis =>
      rw [htmlEnd]
      split
      · exact Nat.le_refl number
      · dsimp only
        split
        · split
          · exact Nat.le_refl number
          · exact Nat.le_succ number
        · exact (Nat.le_succ number).trans (inductionHypothesis _)

theorem le_paragraphEnd (most number : Nat) : number ≤ frame.paragraphEnd most number := by
  induction most generalizing number with
  | zero => exact Nat.le_refl number
  | succ most inductionHypothesis =>
      rw [paragraphEnd]
      split
      · exact Nat.le_refl number
      · split
        · exact Nat.le_refl number
        · exact (Nat.le_succ number).trans (inductionHypothesis _)

theorem nonempty_of_lt_paragraphEnd {most number line : Nat} (ahead : number ≤ line)
    (before : line < frame.paragraphEnd most number) : (frame.line line).isEmpty = false := by
  induction most generalizing number with
  | zero => exact absurd before (Nat.not_lt_of_le ahead)
  | succ most inductionHypothesis =>
      rw [paragraphEnd] at before
      split at before
      · exact absurd before (Nat.not_lt_of_le ahead)
      · next goesOn =>
          split at before
          · exact absurd before (Nat.not_lt_of_le ahead)
          · rcases Nat.eq_or_lt_of_le ahead with rfl | later
            · rw [Bool.or_eq_true, not_or] at goesOn
              exact Bool.eq_false_iff.mpr goesOn.2
            · exact inductionHypothesis later before

theorem le_of_underline? {stop most number underline : Nat}
    (found : frame.underline? stop most number = some underline) : number ≤ underline := by
  induction most generalizing number with
  | zero => cases found
  | succ most inductionHypothesis =>
      rw [underline?] at found
      split at found
      · cases found
      · split at found
        · exact (Nat.le_succ number).trans (inductionHypothesis found)
        · split at found
          · cases found
            exact Nat.le_refl _
          · split at found
            · cases found
            · exact (Nat.le_succ number).trans (inductionHypothesis found)

/-- So does the text of an underlined heading. -/
theorem nonempty_of_lt_underline? {stop most number line underline : Nat}
    (found : frame.underline? stop most number = some underline) (ahead : number ≤ line)
    (before : line < underline) : (frame.line line).isEmpty = false := by
  induction most generalizing number with
  | zero => cases found
  | succ most inductionHypothesis =>
      rw [underline?] at found
      split at found
      · cases found
      · next goesOn =>
          rw [Bool.or_eq_true, not_or] at goesOn
          have later (further : frame.underline? stop most (number + 1) = some underline) :
              (frame.line line).isEmpty = false := by
            rcases Nat.eq_or_lt_of_le ahead with rfl | behind
            · exact Bool.eq_false_iff.mpr goesOn.2
            · exact inductionHypothesis further behind
          split at found
          · exact later found
          · split at found
            · cases found
              exact absurd before (Nat.not_lt_of_le ahead)
            · split at found
              · cases found
              · exact later found

/-- The mark of a list item stands behind the beginning of its line. -/
theorem start_le_of_bullet? {number : Nat} {marker : Marker}
    (found : frame.bullet? number = some marker) : (frame.line number).start ≤ marker.stop := by
  unfold bullet? at found
  dsimp only at found
  split at found
  · split at found
    · cases found
      exact (Nat.le_add_right _ _).trans (Nat.le_succ _)
    · cases found
  · cases found

theorem start_le_of_ordinal? {number : Nat} {marker : Marker}
    (found : frame.ordinal? number = some marker) : (frame.line number).start ≤ marker.stop := by
  unfold ordinal? at found
  dsimp only at found
  split at found
  · split at found
    · cases found
      exact (Nat.le_add_right _ _).trans ((Source.le_pass _ _).trans (Nat.le_succ _))
    · cases found
  · cases found

theorem start_le_of_list? {number : Nat} {marker : Marker}
    (found : frame.list? number = some marker) : (frame.line number).start ≤ marker.stop := by
  unfold list? at found
  dsimp only at found
  split at found
  · cases found
  split at found
  · cases found
  unfold marker? at found
  split at found
  · next ordinal =>
      cases found
      exact frame.start_le_of_ordinal? ordinal
  · exact frame.start_le_of_bullet? found

theorem start_le_of_nextMarker? {number : Nat} {marker next : Marker}
    (found : frame.nextMarker? marker number = some next) :
    (frame.line number).start ≤ next.stop := by
  unfold nextMarker? at found
  dsimp only at found
  split at found
  · cases found
  have isMark := (Option.filter_eq_some_iff.mp found).1
  split at isMark
  · exact frame.start_le_of_ordinal? isMark
  · exact frame.start_le_of_bullet? isMark

/-- A quotation ends where its paragraphs have to end, or before. -/
theorem le_limit_quotation {stop most number : Nat} {lastEmpty : Bool} {inner : Frame}
    (within : number ≤ stop) (bounded : stop ≤ inner.limit) :
    (frame.quotation stop most number lastEmpty inner).2 ≤
      (frame.quotation stop most number lastEmpty inner).1.limit := by
  induction most generalizing number lastEmpty inner with
  | zero => exact within.trans bounded
  | succ most inductionHypothesis =>
      rw [quotation]
      split
      · exact within.trans bounded
      · next goesOn =>
          rw [Bool.or_eq_true, not_or, decide_eq_true_iff] at goesOn
          have next := Nat.lt_of_not_le goesOn.1
          split
          · exact inductionHypothesis next bounded
          · split
            · exact within.trans bounded
            · split
              · split
                · exact Nat.le_refl number
                · exact Nat.le_refl number
              · exact inductionHypothesis next bounded

end Frame

namespace Drawn

variable {frame : Frame}

theorem next_le_of_draw? {drawn more : Drawn} (found : draw? frame drawn = some more) :
    drawn.next ≤ more.next := by
  rcases Option.map_eq_some_iff.mp found with ⟨_, _, rfl⟩
  exact Nat.le_succ drawn.next

theorem next_le_drawMore (frame : Frame) (drawn : Drawn) :
    drawn.next ≤ (drawMore frame drawn).next := by
  rw [drawMore]
  cases found : draw? frame drawn with
  | none => exact Nat.le_refl drawn.next
  | some more => exact next_le_of_draw? found

theorem next_le_of_labelEnd? {fuel position : Nat} {drawn : Drawn} {found : Nat × Drawn}
    (closed : labelEnd? frame fuel position drawn = some found) : drawn.next ≤ found.2.next := by
  induction fuel generalizing position drawn with
  | zero => cases closed
  | succ fuel inductionHypothesis =>
      have more := next_le_drawMore frame drawn
      rw [labelEnd?] at closed
      split at closed
      · cases closed
      · split at closed
        · cases closed
        split at closed
        · cases closed
          exact Nat.le_refl _
        split at closed
        · exact more.trans (inductionHypothesis closed)
        split at closed
        · split at closed
          · exact more.trans (inductionHypothesis closed)
          · exact inductionHypothesis closed
        · exact inductionHypothesis closed

theorem next_le_passSpaces (frame : Frame) (fuel position : Nat) (drawn : Drawn) :
    drawn.next ≤ (passSpaces frame fuel position drawn).2.next := by
  induction fuel generalizing position drawn with
  | zero => exact Nat.le_refl _
  | succ fuel inductionHypothesis =>
      rw [passSpaces]
      split
      · exact Nat.le_refl _
      · split
        · exact (next_le_drawMore frame drawn).trans (inductionHypothesis _ _)
        · split
          · exact inductionHypothesis _ _
          · exact Nat.le_refl _

theorem next_le_finishTitle (frame : Frame) (fuel : Nat) (title : Title) (drawn : Drawn) :
    drawn.next ≤ (finishTitle frame fuel title drawn).2.next := by
  induction fuel generalizing title drawn with
  | zero => exact Nat.le_refl _
  | succ fuel inductionHypothesis =>
      unfold finishTitle
      split
      · split
        · next more found => exact (next_le_of_draw? found).trans (inductionHypothesis _ _)
        · exact Nat.le_refl _
      · exact Nat.le_refl _

theorem next_le_of_definitionEnd? {position : Nat} {drawn : Drawn} {next : Nat}
    (ended : definitionEnd? frame position drawn = some next) : drawn.next ≤ next := by
  have spaces := next_le_passSpaces frame (fuel frame) position drawn
  unfold definitionEnd? at ended
  dsimp only at ended
  generalize passSpaces frame (fuel frame) position drawn = reached at ended spaces
  have title := next_le_finishTitle frame (fuel frame)
    (titleAt reached.2.text reached.1 reached.2.text.size) reached.2
  generalize finishTitle frame (fuel frame)
    (titleAt reached.2.text reached.1 reached.2.text.size) reached.2 = final at ended title
  have bare {line : Prop} [Decidable line]
      (found : (if line then some drawn.next else none) = some next) : drawn.next ≤ next := by
    split at found
    · cases found
      exact Nat.le_refl _
    · cases found
  split at ended
  · split at ended
    · exact bare ended
    split at ended
    · cases ended
      exact spaces.trans title
    split at ended
    · cases ended
    · exact bare ended
  · exact bare ended

end Drawn

theorem Frame.lt_of_definition? {frame : Frame} {number : Nat} {label : Text} {next : Nat}
    (found : frame.definition? number = some (label, next)) : number < next := by
  unfold Frame.definition? at found
  dsimp only at found
  split at found
  · cases found
  · rcases Option.bind_eq_some_iff.mp found with ⟨label, closed, found⟩
    split at found
    · cases found
    · rcases Option.bind_eq_some_iff.mp found with ⟨destination, _, found⟩
      rcases Option.bind_eq_some_iff.mp found with ⟨behind, ended, found⟩
      split at found
      · cases found
      · cases found
        exact (Drawn.next_le_of_labelEnd? closed).trans
          ((Drawn.next_le_passSpaces _ _ _ _).trans (Drawn.next_le_of_definitionEnd? ended))

/-! ## Leaves behind one another -/

/-- The line that the leaf ends on, if every line break of its text is one of the document. -/
def Leaf.lastLine (leaf : Leaf) : Nat :=
  leaf.line + leaf.content.count '\n'

/-- The leaves stand on lines between two others, the last leaf in front, and none begins before
the one behind it has ended. -/
structure Stacked (low high : Nat) (leaves : List Leaf) : Prop where
  low_le : ∀ leaf ∈ leaves, low ≤ leaf.line
  lt_high : ∀ leaf ∈ leaves, leaf.lastLine < high
  ordered : leaves.Pairwise fun later earlier => earlier.lastLine < later.line

namespace Stacked

variable {low middle high : Nat}

theorem nil (low high : Nat) : Stacked low high [] where
  low_le _ member := absurd member List.not_mem_nil
  lt_high _ member := absurd member List.not_mem_nil
  ordered := .nil

theorem append {later earlier : List Leaf} (above : Stacked middle high later)
    (below : Stacked low middle earlier) (ahead : low ≤ middle) (within : middle ≤ high) :
    Stacked low high (later ++ earlier) where
  low_le leaf member := (List.mem_append.mp member).elim
    (fun isLater => ahead.trans (above.low_le leaf isLater)) (below.low_le leaf)
  lt_high leaf member := (List.mem_append.mp member).elim (above.lt_high leaf)
    fun isEarlier => (below.lt_high leaf isEarlier).trans_le within
  ordered := List.pairwise_append.mpr ⟨above.ordered, below.ordered,
    fun later isLater earlier isEarlier =>
      (below.lt_high earlier isEarlier).trans_le (above.low_le later isLater)⟩

end Stacked

/-- What a reader does that goes from one line to another: the leaves that it adds lie between
them and spell what stands there. -/
structure Passage (source : Source) (number : Nat) (document : Document)
    (result : Nat × Document) : Prop where
  ahead : number ≤ result.1
  added : ∃ leaves, result.2.leaves = leaves ++ document.leaves ∧ Stacked number result.1 leaves ∧
    ∀ leaf ∈ leaves, leaf.Spelled source.toList

namespace Passage

variable {source : Source} {number next : Nat} {document : Document}

theorem quiet {result : Nat × Document} (ahead : number ≤ result.1)
    (same : result.2.leaves = document.leaves) : Passage source number document result :=
  ⟨ahead, [], same, .nil _ _, fun _ member => absurd member List.not_mem_nil⟩

theorem of_source {other : Source} {result : Nat × Document} (same : other = source)
    (passage : Passage other number document result) : Passage source number document result :=
  same ▸ passage

theorem leaf {content : Text} (ends : number + content.count '\n' < next)
    (spelled : Leaf.Spelled source.toList { content, line := number }) :
    Passage source number document (next, document.addLeaf content number) := by
  refine ⟨Nat.le_of_add_right_le ends.le, [{ content, line := number }], rfl, ⟨?_, ?_, ?_⟩, ?_⟩
  · exact fun _ member => List.mem_singleton.mp member ▸ Nat.le_refl number
  · exact fun _ member => List.mem_singleton.mp member ▸ ends
  · exact List.pairwise_singleton _ _
  · exact fun _ member => List.mem_singleton.mp member ▸ spelled

theorem trans {first second : Nat × Document} (before : Passage source number document first)
    (after : Passage source first.1 first.2 second) : Passage source number document second := by
  rcases before.added with ⟨earlier, wrote, below, spelled⟩
  rcases after.added with ⟨later, wroteLater, above, spelledLater⟩
  refine ⟨before.ahead.trans after.ahead, later ++ earlier, ?_, ?_, fun leaf member => ?_⟩
  · rw [wroteLater, wrote, List.append_assoc]
  · exact above.append below before.ahead after.ahead
  · exact (List.mem_append.mp member).elim (spelledLater leaf) (spelled leaf)

/-- Lines that are passed before anything is read. -/
theorem from_later {middle : Nat} {result : Nat × Document} (ahead : number ≤ middle)
    (passage : Passage source middle document result) : Passage source number document result := by
  have passed : Passage source number document (middle, document) := quiet ahead rfl
  exact passed.trans passage

end Passage

/-! ## Readers -/

/-- A way of reading blocks that goes forward and leaves its leaves on the lines that it passes. -/
def Frame.Reader.Forward (reader : Frame.Reader) : Prop :=
  ∀ frame number stop document, frame.Lies → stop ≤ frame.limit →
    Passage frame.source number document (reader frame number stop document)

namespace Frame

variable {frame : Frame} {insideQuote inside : Reader} {number stop : Nat} {document : Document}

theorem items_passage (forward : inside.Forward) (lies : frame.Lies) (bounded : stop ≤ frame.limit)
    (most : Nat) {marker : Marker} (ahead : (frame.line number).start ≤ marker.stop)
    (before : number < stop) :
    Passage frame.source number document
      (items inside frame stop most number marker document) := by
  induction most generalizing number marker document with
  | zero => exact .quiet (Nat.le_refl number) rfl
  | succ most inductionHypothesis =>
      have innerLies := lies.insideItem ahead
      rw [items]
      split
      next inner isBare entered =>
        have same : inner.source = frame.source ∧ inner.limit = frame.limit := by
          have opened := congrArg Prod.fst entered
          dsimp only at opened
          rw [← opened]
          exact ⟨rfl, rfl⟩
        rw [entered] at innerLies
        split
        next following read made =>
          have item : Passage frame.source number document (following, read) := by
            rw [← made]
            split
            · exact .quiet (Nat.le_min.mpr ⟨Nat.le_add_right _ _, before.le⟩) rfl
            · exact .of_source same.1
                (forward inner number stop document innerLies (same.2 ▸ bounded))
          split
          · exact item
          · next within =>
              split
              · next marks =>
                  exact item.trans (inductionHypothesis (frame.start_le_of_nextMarker? marks)
                    (Nat.lt_of_not_le within))
              · exact item

theorem count_heading (lies : frame.Lies) {content : Text}
    (found : frame.heading? number = some content) : content.count '\n' = 0 := by
  unfold heading? at found
  dsimp only at found
  split at found
  · cases found
  · split at found
    · cases found
    · cases found
      refine List.count_eq_zero.mpr fun held => ?_
      refine Source.Flat.not_mem_between ?_ ((trim_sublist _).subset held)
      refine (lies number).flat.mono ((Nat.le_add_right _ _).trans (Source.le_pass _ _)) ?_
      split
      · exact (Source.passBack_le _ _).trans (Source.passBack_le _ _)
      · exact Source.passBack_le _ _

theorem readBlock_passage (forwardQuote : insideQuote.Forward) (forward : inside.Forward)
    (lies : frame.Lies) (bounded : stop ≤ frame.limit) (before : number < stop)
    (nonempty : (frame.line number).isEmpty = false) :
    Passage frame.source number document
      (readBlock insideQuote inside frame number stop document) := by
  unfold readBlock
  dsimp only
  -- One case for each kind of block, in the order in which they are tried.
  split
  · exact .quiet ((Nat.le_succ number).trans (frame.le_codeEnd (Nat.le_refl _))) rfl
  split
  · exact .quiet ((Nat.le_succ number).trans (frame.le_fenceEnd _ _ _ _ _)) rfl
  split
  · have inner := @Lies.quotation frame _ lies stop (stop - number) (number + 1)
      (frame.unquoted number).isEmpty (lies.setLine (lies.unquoted number)) rfl
    exact .of_source inner.2 (forwardQuote { (_ : Frame) with blockIndent := 0 } number _ document
      inner.1 (frame.le_limit_quotation before bounded))
  split
  · exact .quiet (Nat.le_succ number) rfl
  split
  · next found => exact items_passage forward lies bounded _ (frame.start_le_of_list? found) before
  split
  · next found => exact .quiet (lt_of_definition? found).le rfl
  split
  · split
    · exact .quiet (Nat.le_succ number) rfl
    · exact .quiet ((Nat.le_succ number).trans (frame.le_htmlEnd _ _ _ _)) rfl
  split
  · next content found =>
      exact .leaf (count_heading lies found ▸ Nat.lt_succ_self number) (spelled_heading lies found)
  have filled {next : Nat} (ahead : number < next)
      (further : ∀ line, number + 1 ≤ line → line < next → (frame.line line).isEmpty = false) :
      Leaf.Spelled frame.source.toList { content := frame.content number next, line := number } := by
    refine spelled_content lies ahead fun line from_start before => ?_
    rcases Nat.eq_or_lt_of_le from_start with rfl | behind
    · exact nonempty
    · exact further line behind before
  split
  · next underline found =>
      have ahead := frame.le_of_underline? found
      exact .leaf ((count_content_lt lies ahead).trans (Nat.lt_succ_self underline))
        (filled ahead fun _ => frame.nonempty_of_lt_underline? found)
  · have ahead := frame.le_paragraphEnd (frame.limit - number) (number + 1)
    exact .leaf (count_content_lt lies ahead)
      (filled ahead fun _ => frame.nonempty_of_lt_paragraphEnd)

theorem readBlocks_passage {block : Reader}
    (reads : ∀ frame number stop document, frame.Lies → stop ≤ frame.limit → number < stop →
      (frame.line number).isEmpty = false →
      Passage frame.source number document (block frame number stop document))
    (lies : frame.Lies) (bounded : stop ≤ frame.limit) (most : Nat) :
    Passage frame.source number document (readBlocks block frame stop most number document) := by
  induction most generalizing number document with
  | zero => exact .quiet (Nat.le_refl number) rfl
  | succ most inductionHypothesis =>
      rw [readBlocks]
      split
      · exact .quiet (Nat.le_refl number) rfl
      · have start := frame.le_passEmpty (frame.limit - number) number
        dsimp only
        split
        · exact .quiet start rfl
        · next inside =>
            rw [Bool.or_eq_true, not_or, decide_eq_true_iff] at inside
            have before := Nat.lt_of_not_le inside.1
            have nonempty := frame.nonempty_passEmpty (frame.limit - number) number (by omega)
              (before.trans_le bounded)
            have step := reads frame _ stop document lies bounded before nonempty
            refine .from_later start (step.trans ?_)
            refine .from_later ?_ inductionHypothesis
            split
            · exact Nat.le_succ _
            · exact Nat.le_refl _

/-- However deep containers are looked into, reading goes forward. -/
theorem read_forward (levels : Nat) : Reader.Forward (read levels) := by
  induction levels using Nat.strongRecOn with
  | _ levels inductionHypothesis =>
      intro frame number stop document lies bounded
      match levels with
      | 0 =>
          exact readBlocks_passage (fun _ _ _ _ _ _ before _ => .quiet before.le rfl) lies bounded _
      | 1 =>
          have deeper := inductionHypothesis 0 (by decide)
          exact readBlocks_passage (fun _ _ _ _ => readBlock_passage deeper deeper) lies bounded _
      | levels + 2 =>
          exact readBlocks_passage (fun _ _ _ _ =>
            readBlock_passage (inductionHypothesis (levels + 1) (by omega))
              (inductionHypothesis levels (by omega))) lies bounded _

end Frame

/-- The leaves of a document, the last one in front. -/
theorem leaves_passage (text : Text) :
    ∃ leaves next, (Document.ofText text).leaves = leaves.reverse ∧ Stacked 0 next leaves ∧
      ∀ leaf ∈ leaves, leaf.Spelled (plainBreaks text) := by
  have lies := Frame.lies_document (plainBreaks text).toArray
    (linesOf (plainBreaks text).toArray).size 0 (-1)
  rcases (Frame.read_forward deepestLevel _ 0 _ { leaves := [], labels := [] } lies
    (Nat.le_refl _)).added with ⟨leaves, wrote, stacked, spelled⟩
  refine ⟨leaves, _, ?_, stacked, spelled⟩
  unfold Document.ofText
  dsimp only
  rw [wrote, List.append_nil]

theorem leaves_pairwise (text : Text) :
    (Document.ofText text).leaves.Pairwise fun earlier later => earlier.lastLine < later.line := by
  rcases leaves_passage text with ⟨leaves, _, wrote, stacked, _⟩
  rw [wrote, List.pairwise_reverse]
  exact stacked.ordered

theorem spelled_of_mem_leaves {text : Text} {leaf : Leaf}
    (member : leaf ∈ (Document.ofText text).leaves) : leaf.Spelled (plainBreaks text) := by
  rcases leaves_passage text with ⟨leaves, _, wrote, _, spelled⟩
  rw [wrote, List.mem_reverse] at member
  exact spelled leaf member

end Markup
end Crosslink

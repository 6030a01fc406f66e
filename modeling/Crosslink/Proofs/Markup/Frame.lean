import Crosslink.Markup.Document
import Crosslink.Proofs.Markup.Source
import Mathlib.Order.Nat

namespace Crosslink
namespace Markup

/-!
The lines of a frame are parts of the lines of the document.  Containers move the beginning of a
line forward and never its end, so this stays true inside of them.  A line holds no line break,
and the text of several lines holds no more line breaks than there are lines before the last one.
-/

/-- No line break stands between two positions. -/
def Source.Flat (source : Source) (start stop : Nat) : Prop :=
  ∀ place, start ≤ place → place < stop → source[place]? ≠ some '\n'

namespace Source.Flat

variable {source : Source} {start stop : Nat}

theorem mono {start' stop' : Nat} (flat : source.Flat start stop) (later : start ≤ start')
    (earlier : stop' ≤ stop) : source.Flat start' stop' :=
  fun place ahead before => flat place (later.trans ahead) (before.trans_le earlier)

theorem refl (position : Nat) : source.Flat position position :=
  fun _ ahead before => absurd before (Nat.not_lt_of_le ahead)

/-- No line is left between the two positions. -/
theorem count_take (flat : source.Flat start stop) {place : Nat} (ahead : start ≤ place)
    (within : place ≤ stop) :
    (source.toList.take place).count '\n' = (source.toList.take start).count '\n' := by
  induction place, ahead using Nat.le_induction with
  | base => rfl
  | succ place ahead inductionHypothesis =>
      have here := flat place ahead within
      rw [List.take_add_one, List.count_append, inductionHypothesis (Nat.le_of_succ_le within),
        Array.getElem?_toList]
      cases held : source[place]? with
      | none => rfl
      | some c =>
          rw [held, ne_eq, Option.some.injEq] at here
          rw [Option.toList_some, List.count_singleton, if_neg (by simpa using here), Nat.add_zero]

theorem not_mem_between (flat : source.Flat start stop) : '\n' ∉ source.between start stop := by
  intro held
  rw [between_eq] at held
  rcases List.mem_iff_getElem?.mp held with ⟨place, found⟩
  rw [List.getElem?_drop, List.getElem?_take] at found
  split at found
  · next inside =>
      exact flat (start + place) (Nat.le_add_right _ _) inside (by rwa [← Array.getElem?_toList])
  · cases found

/-- One more character is at most one line break. -/
theorem count_between_succ_le (flat : source.Flat start stop) :
    (source.between start (stop + 1)).count '\n' ≤ 1 := by
  have before : (source.between start stop).count '\n' = 0 :=
    List.count_eq_zero.mpr flat.not_mem_between
  rw [between_eq] at before ⊢
  rw [List.take_add_one, List.drop_append, List.count_append, before, Nat.zero_add]
  calc
    _ ≤ (source.toList[stop]?.toList.drop (start - (source.toList.take stop).length)).length :=
      List.count_le_length
    _ ≤ source.toList[stop]?.toList.length := by
      rw [List.length_drop]
      exact Nat.sub_le _ _
    _ ≤ 1 := Option.length_toList_le

end Source.Flat

/-! ## Lines -/

def Line.Flat (source : Source) (line : Line) : Prop :=
  source.Flat line.start line.stop

theorem le_passColumns (source : Source) (line : Line) (stop : Nat) (columns : Int)
    (most position : Nat) (taken : Int) :
    position ≤ (passColumns source line stop columns most position taken).1 := by
  induction most generalizing position taken with
  | zero => exact Nat.le_refl position
  | succ most inductionHypothesis =>
      rw [passColumns]
      split
      · split
        · exact (Nat.le_succ position).trans (inductionHypothesis _ _)
        · split
          · exact (Nat.le_succ position).trans (inductionHypothesis _ _)
          · exact Nat.le_refl position
      · exact Nat.le_refl position

namespace Line.Flat

variable {source : Source} {line : Line}

private theorem count_replicate_append (number : Nat) (text : Text) :
    (List.replicate number ' ' ++ text).count '\n' = text.count '\n' := by
  rw [List.count_append, List.count_replicate, if_neg (by decide), Nat.zero_add]

theorem count_content (flat : line.Flat source) (columns : Int) :
    (line.content source columns line.stop).count '\n' = 0 := by
  rw [Line.content]
  dsimp only
  rw [count_replicate_append]
  exact List.count_eq_zero.mpr
    (flat.mono (le_passColumns source line _ columns _ _ _) (Nat.le_refl _)).not_mem_between

theorem count_content_succ_le (flat : line.Flat source) (columns : Int) :
    (line.content source columns (line.stop + 1)).count '\n' ≤ 1 := by
  rw [Line.content]
  dsimp only
  rw [count_replicate_append]
  exact (flat.mono (le_passColumns source line _ columns _ _ _)
    (Nat.le_refl _)).count_between_succ_le

end Line.Flat

/-- The line is the end of a line of the document, and its text, if there is any, begins with
something else than indentation. -/
structure Line.Lies (source : Source) (number : Nat) (line : Line) : Prop where
  flat : line.Flat source
  ends : source[line.stop]? = some '\n' ∨ line.stop = source.size
  numbered : ∀ place, line.start ≤ place → place < line.stop →
    (source.toList.take place).count '\n' = number
  shows : line.text < line.stop → ∃ c, source[line.text]? = some c ∧ isSpace c = false

/-- What indents a line is passed, up to something else. -/
theorem passIndent_spec (source : Source) (column : Int) (most position : Nat) (offset : Int) :
    position ≤ (passIndent source column most position offset).1 ∧
      ((passIndent source column most position offset).1 < position + most →
        ∀ c, source[(passIndent source column most position offset).1]? = some c →
          isSpace c = false) := by
  induction most generalizing position offset with
  | zero => exact ⟨Nat.le_refl position, fun short => absurd short (Nat.lt_irrefl position)⟩
  | succ most inductionHypothesis =>
      have further (offset : Int) :
          position ≤ (passIndent source column most (position + 1) offset).1 ∧
            ((passIndent source column most (position + 1) offset).1 < position + (most + 1) →
              ∀ c, source[(passIndent source column most (position + 1) offset).1]? = some c →
                isSpace c = false) := by
        have step := inductionHypothesis (position + 1) offset
        exact ⟨Nat.le_of_succ_le step.1, fun short => step.2 (by omega)⟩
      rw [passIndent]
      split
      · exact further _
      · next notTab =>
          split
          · exact further _
          · next notBlank =>
              refine ⟨Nat.le_refl position, fun _ c held => ?_⟩
              rw [Source.has_iff, held, Option.some.injEq] at notTab notBlank
              rw [isSpace, decide_eq_false notTab, decide_eq_false notBlank, Bool.or_false]

namespace Line.Lies

variable {source : Source} {number : Nat} {line : Line}

theorem le_size (lies : line.Lies source number) : line.stop ≤ source.size := by
  rcases lies.ends with breaks | last
  · exact (Array.getElem?_eq_some_iff.mp breaks).1.le
  · exact last.le

/-- What stands on the line, which a container may go on with. -/
theorem of_le (lies : line.Lies source number) {inner : Line} (later : line.start ≤ inner.start)
    (same : inner.stop = line.stop)
    (shows : inner.text < inner.stop → ∃ c, source[inner.text]? = some c ∧ isSpace c = false) :
    inner.Lies source number where
  flat := lies.flat.mono later same.le
  ends := same ▸ lies.ends
  numbered place ahead before := lies.numbered place (later.trans ahead) (same ▸ before)
  shows := shows

/-- The text of a line begins where the indentation ends. -/
theorem shows_of_passIndent {column : Int} {position stop : Nat} {offset : Int}
    (within : stop ≤ source.size)
    (short : (passIndent source column (stop - position) position offset).1 < stop) :
    ∃ c, source[(passIndent source column (stop - position) position offset).1]? = some c ∧
      isSpace c = false := by
  have passed := passIndent_spec source column (stop - position) position offset
  generalize (passIndent source column (stop - position) position offset).1 = reached
    at short passed ⊢
  have held : source[reached]? = some source[reached] :=
    Array.getElem?_eq_getElem (short.trans_le within)
  exact ⟨_, held, passed.2 (by omega) _ held⟩

theorem between {start stop : Nat} (flat : source.Flat start stop)
    (ends : source[stop]? = some '\n' ∨ stop = source.size)
    (counted : (source.toList.take start).count '\n' = number) :
    (Line.between source start stop).Lies source number where
  flat := flat
  ends := ends
  numbered place ahead before := (flat.count_take ahead (Nat.le_of_lt before)).trans counted
  shows short := by
    have within : stop ≤ source.size := by
      rcases ends with breaks | last
      · exact (Array.getElem?_eq_some_iff.mp breaks).1.le
      · exact last.le
    have passed := (passIndent_spec source 0 (stop - start) start 0).1
    unfold Line.text Line.between at short ⊢
    dsimp only at short ⊢
    rw [Nat.add_sub_cancel' passed] at short ⊢
    exact shows_of_passIndent within short

/-- The empty line at the end of the document. -/
theorem last (source : Source) (number : Nat) :
    Line.Lies source number
      { start := source.size, stop := source.size, shift := 0, indent := 0, column := 0 } where
  flat := .refl _
  ends := .inr rfl
  numbered _ ahead before := absurd before (Nat.not_lt_of_le ahead)
  shows short := absurd short (Nat.lt_irrefl _)

end Line.Lies

/-- The ends that are found lie on lines of the document which follow one another. -/
theorem lies_of_getElem?_lineEnds {source : Source} {fuel number start position index : Nat}
    {ends : Nat × Nat} (flat : source.Flat start position) (ahead : start ≤ position)
    (within : position ≤ source.size)
    (counted : (source.toList.take start).count '\n' = number)
    (held : (lineEnds source fuel start position)[index]? = some ends) :
    (Line.between source ends.1 ends.2).Lies source (number + index) := by
  induction fuel generalizing number start position index with
  | zero => cases held
  | succ fuel inductionHypothesis =>
      rw [lineEnds] at held
      split at held
      · next c found =>
          have inside := (Array.getElem?_eq_some_iff.mp found).1
          split at held
          · next isBreak =>
              rw [isBreak] at found
              cases index with
              | zero =>
                  cases held
                  exact .between flat (.inl found) counted
              | succ index =>
                  rw [List.getElem?_cons_succ] at held
                  have next : (source.toList.take (position + 1)).count '\n' = number + 1 := by
                    rw [List.take_add_one, List.count_append,
                      flat.count_take ahead (Nat.le_refl _), counted, Array.getElem?_toList, found]
                    rfl
                  rw [← Nat.add_assoc, Nat.add_right_comm]
                  exact inductionHypothesis (.refl _) (Nat.le_refl _) inside next held
          · next notBreak =>
              refine inductionHypothesis (fun place later before => ?_)
                (ahead.trans (Nat.le_succ position)) inside counted held
              rcases Nat.eq_or_lt_of_le (Nat.le_of_lt_succ before) with rfl | earlier
              · rw [found]
                exact fun same => notBreak (Option.some.inj same)
              · exact flat place later earlier
      · next behind =>
          split at held
          · cases index with
            | zero =>
                cases held
                have size := Nat.le_antisymm within (Array.getElem?_eq_none_iff.mp behind)
                exact .between flat (.inr size) counted
            | succ index => cases held
          · cases held

/-! ## Frames -/

/-- The lines of the frame are the ends of the lines of the document. -/
def Frame.Lies (frame : Frame) : Prop :=
  ∀ number, (frame.line number).Lies frame.source number

namespace Frame

theorem trim_sublist (text : Text) : text.trim.Sublist text := by
  have front : text.trimStart.Sublist text := List.dropWhile_sublist _
  have back : (text.trimStart.reverse.dropWhile isBlank).Sublist text.trimStart.reverse :=
    List.dropWhile_sublist _
  rw [← List.reverse_sublist, List.reverse_reverse] at back
  exact back.trans front

private theorem count_flatten_le {texts : List Text} {c : Char}
    (single : ∀ text ∈ texts, text.count c ≤ 1) : texts.flatten.count c ≤ texts.length := by
  induction texts with
  | nil => exact Nat.le_refl 0
  | cons text rest inductionHypothesis =>
      have first := single text List.mem_cons_self
      have others := inductionHypothesis fun other member =>
        single other (List.mem_cons_of_mem text member)
      rw [List.flatten_cons, List.count_append, List.length_cons]
      omega

/-- The text of several lines holds fewer line breaks than there are lines. -/
theorem count_content_lt {frame : Frame} (lies : frame.Lies) {start stop : Nat}
    (ordered : start < stop) : start + (frame.content start stop).count '\n' < stop := by
  rcases Nat.exists_eq_add_of_lt ordered with ⟨more, rfl⟩
  have size : start + more + 1 - start = more + 1 := by omega
  refine Nat.lt_succ_of_le (Nat.add_le_add_left (Nat.le_trans ((trim_sublist _).count_le _) ?_) _)
  rw [size, List.range'_concat, List.map_append, List.flatten_append, List.count_append,
    List.map_singleton, List.flatten_singleton]
  dsimp only
  rw [if_neg (by omega), (lies _).flat.count_content]
  refine count_flatten_le (fun text member => ?_) |>.trans_eq ?_
  · rcases List.mem_map.mp member with ⟨number, listed, rfl⟩
    have inside := List.mem_range'_1.mp listed
    rw [if_pos (by omega)]
    exact (lies number).flat.count_content_succ_le _
  · rw [List.length_map, List.length_range']

/-! ## Inside of containers -/

theorem lies_document (source : Source) (limit : Nat) (blockIndent listIndent : Int) :
    Frame.Lies { source, lines := linesOf source, limit, blockIndent, listIndent } := by
  intro number
  unfold Frame.line
  dsimp only
  cases held : (linesOf source)[number]? with
  | none => exact .last source number
  | some line =>
      unfold linesOf at held
      rw [List.getElem?_toArray, List.getElem?_map] at held
      rcases Option.map_eq_some_iff.mp held with ⟨ends, found, rfl⟩
      have lies := lies_of_getElem?_lineEnds (.refl 0) (Nat.le_refl 0) (Nat.zero_le _) rfl found
      rwa [List.take_zero, List.count_nil, Nat.zero_add] at lies

namespace Lies

variable {frame inner : Frame}

theorem setLine (lies : inner.Lies) {line : Line} {number : Nat}
    (liesLine : line.Lies inner.source number) : (inner.setLine number line).Lies := by
  intro other
  rw [Frame.line, Frame.setLine, Array.getElem?_setIfInBounds]
  split
  · next same =>
      split
      · exact same ▸ liesLine
      · exact .last _ _
  · exact lies other

theorem unquoted (lies : frame.Lies) (number : Nat) :
    (frame.unquoted number).Lies frame.source number := by
  refine (lies number).of_le ?_ rfl fun short => ?_
  · unfold Frame.unquoted Line.text
    dsimp only
    omega
  · unfold Frame.unquoted Line.text at short ⊢
    dsimp only at short ⊢
    rw [Nat.add_sub_cancel' (passIndent_spec _ _ _ _ _).1] at short ⊢
    exact Line.Lies.shows_of_passIndent (lies number).le_size short

/-- The lines of a quotation are parts of the lines around it. -/
theorem quotation (lies : frame.Lies) {stop most number : Nat} {lastEmpty : Bool}
    (liesInner : inner.Lies) (same : inner.source = frame.source) :
    (frame.quotation stop most number lastEmpty inner).1.Lies ∧
      (frame.quotation stop most number lastEmpty inner).1.source = frame.source := by
  induction most generalizing number lastEmpty inner with
  | zero => exact ⟨liesInner, same⟩
  | succ most inductionHypothesis =>
      have kept (indent : Int) : Line.Lies inner.source number { frame.line number with indent } :=
        same ▸ (lies number).of_le (Nat.le_refl _) rfl (lies number).shows
      rw [Frame.quotation]
      split
      · exact ⟨liesInner, same⟩
      · split
        · exact inductionHypothesis (liesInner.setLine (same ▸ lies.unquoted number)) same
        · split
          · exact ⟨liesInner, same⟩
          · split
            · have limited : Lies { inner with limit := number } := liesInner
              split
              · exact ⟨limited, same⟩
              · exact ⟨limited.setLine (kept _), same⟩
            · exact inductionHypothesis (liesInner.setLine (kept (-1))) same

theorem insideItem (lies : frame.Lies) {number : Nat} {marker : Marker}
    (ahead : (frame.line number).start ≤ marker.stop) :
    (frame.insideItem number marker).1.Lies := by
  unfold Frame.insideItem
  refine lies.setLine ((lies number).of_le (Nat.le_refl _) rfl fun short => ?_)
  unfold Line.text at short ⊢
  dsimp only at short ⊢
  rw [Nat.add_sub_cancel' (ahead.trans (passIndent_spec _ _ _ _ _).1)] at short ⊢
  exact Line.Lies.shows_of_passIndent (lies number).le_size short

end Lies

end Frame

end Markup
end Crosslink

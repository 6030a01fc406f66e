import Crosslink.Link.Location
import Crosslink.Proofs.Text.Occurrence

namespace Crosslink

/-!
Positions and lines.  A text is cut around each of its lines, and around the line of each of its
positions; what stands in front of the line holds as many line breaks as the number of the line
tells.  So every position lies on the line whose number is the count of line breaks before it, and
a position of a run of inline text is carried to the document by one and the same shift for all
positions of an inline line.
-/

namespace Location

/-! ## Lines with their breaks -/

/-- The text of some lines, each of them with a break behind it. -/
def broken (lines : List Text) : Text := lines.flatMap (· ++ ['\n'])

@[simp] theorem broken_append (first second : List Text) :
    broken (first ++ second) = broken first ++ broken second :=
  List.flatMap_append

@[simp] theorem length_broken (lines : List Text) (number : Nat) :
    (broken (lines.take number)).length = lineStart lines number := by
  rw [lineStart, ← List.sum_eq_foldl_nat, broken, List.length_flatMap]
  simp only [List.length_append, List.length_singleton]

@[simp] theorem lineStart_cons (line : Text) (lines : List Text) (number : Nat) :
    lineStart (line :: lines) (number + 1) = line.length + 1 + lineStart lines number := by
  rw [← length_broken, ← length_broken, List.take_succ_cons, broken, List.flatMap_cons,
    List.length_append, List.length_append]
  rfl

/-- The next line begins behind the line and its break. -/
theorem lineStart_succ {lines : List Text} {number : Nat} {line : Text}
    (held : lines[number]? = some line) :
    lineStart lines (number + 1) = lineStart lines number + line.length + 1 := by
  have next : lines.take (number + 1) = lines.take number ++ [line] := by
    rw [List.take_add_one, held, Option.toList_some]
  rw [← length_broken, next, broken_append, List.length_append, length_broken, broken,
    List.flatMap_singleton, List.length_append]
  rfl

theorem lineStart_mono (lines : List Text) {first second : Nat} (ordered : first ≤ second) :
    lineStart lines first ≤ lineStart lines second := by
  rcases List.take_prefix_take_left ordered (l := lines) with ⟨more, whole⟩
  rw [← length_broken, ← length_broken, ← whole, broken_append, List.length_append]
  exact Nat.le_add_right _ _

theorem count_broken {lines : List Text} (whole : ∀ line ∈ lines, '\n' ∉ line) :
    (broken lines).count '\n' = lines.length := by
  induction lines with
  | nil => rfl
  | cons line rest inductionHypothesis =>
      have own := List.count_eq_zero.mpr (whole line List.mem_cons_self)
      have later := inductionHypothesis fun other member =>
        whole other (List.mem_cons_of_mem line member)
      calc (broken (line :: rest)).count '\n'
          = (line ++ ['\n']).count '\n' + (broken rest).count '\n' := List.count_append ..
        _ = 1 + rest.length := by rw [List.count_append, own, later, List.count_singleton_self]
        _ = (line :: rest).length := by rw [List.length_cons, Nat.add_comm]

theorem broken_eq_nil_or (lines : List Text) :
    broken lines = [] ∨ ∃ earlier, broken lines = earlier ++ ['\n'] := by
  rcases List.eq_nil_or_concat lines with rfl | ⟨earlier, last, rfl⟩
  · exact Or.inl rfl
  · refine Or.inr ⟨broken earlier ++ last, ?_⟩
    rw [List.concat_eq_append, broken_append, List.append_assoc, broken, broken,
      List.flatMap_singleton]

theorem join_eq_broken_append (lines : List Text) (last : Text) :
    Text.join ['\n'] (lines ++ [last]) = broken lines ++ last := by
  induction lines with
  | nil => exact Text.join_singleton _ _
  | cons first rest inductionHypothesis =>
      have further : rest ++ [last] ≠ [] :=
        List.append_ne_nil_of_right_ne_nil rest (List.cons_ne_nil last [])
      refine (Text.join_append '\n' (List.cons_ne_nil first []) further).trans ?_
      rw [Text.join_singleton, inductionHypothesis, broken, broken, List.flatMap_cons,
        List.append_assoc, List.append_assoc]
      rfl

@[simp] theorem broken_splitOn (text : Text) : broken (text.splitOn '\n') = text ++ ['\n'] := by
  have joined := join_eq_broken_append (text.splitOn '\n') []
  rw [Text.join_concat '\n' (Text.splitOn_ne_nil '\n' text), Text.join_splitOn,
    List.append_nil] at joined
  exact joined.symm

/-! ## A line between two breaks -/

/-- A text is cut around one of its lines.  The line runs from the beginning of the text or from
behind a line break to the next break or to the end. -/
structure IsLine (text front line back : Text) : Prop where
  whole : text = front ++ (line ++ back)
  oneLine : '\n' ∉ line
  begins : front = [] ∨ ∃ earlier, front = earlier ++ ['\n']
  ends : back = [] ∨ ∃ later, back = '\n' :: later

namespace IsLine

variable {text front line back : Text}

theorem take_front (isLine : IsLine text front line back) : text.take front.length = front := by
  rw [isLine.whole, List.take_left]

theorem drop_front (isLine : IsLine text front line back) :
    text.drop front.length = line ++ back := by
  rw [isLine.whole, List.drop_left]

theorem exists_lines (isLine : IsLine text front line back) :
    ∃ before after, text.splitOn '\n' = before ++ line :: after ∧ front = broken before := by
  have alone := Text.splitOn_of_not_mem isLine.oneLine
  have behind : ∃ after, (line ++ back).splitOn '\n' = line :: after := by
    rcases isLine.ends with rfl | ⟨later, rfl⟩
    · exact ⟨[], by rw [List.append_nil, alone]⟩
    · exact ⟨_, by rw [Text.splitOn_append_cons, alone, List.singleton_append]⟩
  rcases behind with ⟨after, cut⟩
  rcases isLine.begins with rfl | ⟨earlier, rfl⟩
  · exact ⟨[], after, isLine.whole ▸ cut, rfl⟩
  · refine ⟨earlier.splitOn '\n', after, ?_, (broken_splitOn earlier).symm⟩
    rw [isLine.whole, List.append_assoc, List.singleton_append, Text.splitOn_append_cons, cut]

/-- A line is found under the number of breaks in front of it, and begins behind them. -/
theorem numbered (isLine : IsLine text front line back) :
    (text.splitOn '\n')[front.count '\n']? = some line ∧
      lineStart (text.splitOn '\n') (front.count '\n') = front.length := by
  rcases isLine.exists_lines with ⟨before, after, cut, rfl⟩
  have whole : ∀ line ∈ before, '\n' ∉ line := fun line member =>
    Text.not_mem_of_mem_splitOn (cut ▸ List.mem_append_left (_ :: after) member)
  rw [count_broken whole, cut, ← length_broken, List.take_left,
    List.getElem?_append_right (Nat.le_refl _), Nat.sub_self]
  exact ⟨rfl, rfl⟩

theorem count_take (isLine : IsLine text front line back) {position : Nat}
    (ahead : front.length ≤ position) (within : position ≤ front.length + line.length) :
    (text.take position).count '\n' = front.count '\n' := by
  rcases Nat.exists_eq_add_of_le ahead with ⟨inset, rfl⟩
  have unbroken : (line.take inset).count '\n' = 0 :=
    List.count_eq_zero.mpr fun member => isLine.oneLine (List.mem_of_mem_take member)
  calc (text.take (front.length + inset)).count '\n'
    _ = (front ++ line.take inset).count '\n' := by
      rw [List.take_add, isLine.take_front, isLine.drop_front,
        List.take_append_of_le_length (by omega)]
    _ = front.count '\n' := by rw [List.count_append, unbroken, Nat.add_zero]

/-- What stands from a position of a line to the next break is the rest of the line. -/
theorem before_drop (isLine : IsLine text front line back) {position : Nat}
    (ahead : front.length ≤ position) (within : position ≤ front.length + line.length) :
    Text.before '\n' (text.drop position) = line.drop (position - front.length) := by
  rcases Nat.exists_eq_add_of_le ahead with ⟨inset, rfl⟩
  rw [← List.drop_drop, isLine.drop_front, List.drop_append_of_le_length (by omega),
    Text.before_append_mark _ back isLine.ends, Nat.add_sub_cancel_left]
  exact Text.before_of_not_mem fun member => isLine.oneLine (List.mem_of_mem_drop member)

end IsLine

theorem exists_isLine_of_lines {text line : Text} {before after : List Text}
    (cut : text.splitOn '\n' = before ++ line :: after) :
    ∃ back, IsLine text (broken before) line back := by
  have oneLine : '\n' ∉ line :=
    Text.not_mem_of_mem_splitOn (cut ▸ List.mem_append_right before List.mem_cons_self)
  have begins := broken_eq_nil_or before
  have joined := Text.join_splitOn '\n' text
  rw [cut] at joined
  cases after with
  | nil =>
      rw [join_eq_broken_append] at joined
      exact ⟨[], by rw [List.append_nil, joined], oneLine, begins, .inl rfl⟩
  | cons next rest =>
      have upTo : before ++ [line] ≠ [] :=
        List.append_ne_nil_of_right_ne_nil before (List.cons_ne_nil line [])
      rw [List.append_cons, Text.join_append '\n' upTo (List.cons_ne_nil next rest),
        join_eq_broken_append, List.append_assoc] at joined
      exact ⟨_, joined.symm, oneLine, begins, .inr ⟨_, rfl⟩⟩

theorem exists_isLine {text line : Text} {number : Nat}
    (held : (text.splitOn '\n')[number]? = some line) :
    ∃ front back, IsLine text front line back ∧ front.count '\n' = number ∧
      front.length = lineStart (text.splitOn '\n') number := by
  rcases List.getElem?_eq_some_iff.mp held with ⟨listed, rfl⟩
  have cut : text.splitOn '\n' = (text.splitOn '\n').take number ++
      (text.splitOn '\n')[number] :: (text.splitOn '\n').drop (number + 1) := by
    rw [List.getElem_cons_drop, List.take_append_drop]
  have counted := count_broken fun line (member : line ∈ (text.splitOn '\n').take number) =>
    Text.not_mem_of_mem_splitOn (List.mem_of_mem_take member)
  rw [List.length_take_of_le (Nat.le_of_lt listed)] at counted
  rcases exists_isLine_of_lines cut with ⟨back, isLine⟩
  exact ⟨_, back, isLine, counted, length_broken _ _⟩

theorem exists_isLine_of_le {text : Text} {position : Nat} (within : position ≤ text.length) :
    ∃ front line back, IsLine text front line back ∧ front.length ≤ position ∧
      position ≤ front.length + line.length := by
  rcases List.eq_nil_or_concat (Text.splitOn '\n' (text.take position)) with
    none | ⟨earlier, own, cut⟩
  · exact absurd none (Text.splitOn_ne_nil '\n' _)
  · rw [List.concat_eq_append] at cut
    have joined := join_eq_broken_append earlier own
    rw [← cut, Text.join_splitOn] at joined
    have size := congrArg List.length joined
    rw [List.length_take_of_le within, List.length_append] at size
    have onLine : '\n' ∉ own :=
      Text.not_mem_of_mem_splitOn (cut ▸ List.mem_append_right earlier List.mem_cons_self)
    refine ⟨broken earlier, own ++ Text.before '\n' (text.drop position),
      Text.fromFirst '\n' (text.drop position), ⟨?_, ?_, broken_eq_nil_or earlier, ?_⟩, ?_, ?_⟩
    · rw [List.append_assoc, Text.before_append_fromFirst, ← List.append_assoc, ← joined,
        List.take_append_drop]
    · rw [List.mem_append]
      exact fun held => held.elim onLine (Text.not_mem_before '\n' _)
    · exact Text.fromFirst_eq_nil_or_cons '\n' _
    · omega
    · rw [List.length_append]
      omega

/-! ## Lines by their numbers -/

/-- Behind the line stands nothing, or what its break begins. -/
theorem exists_drop_lineStart {text : Text} {number : Nat} {line : Text}
    (held : (text.splitOn '\n')[number]? = some line) :
    '\n' ∉ line ∧ ∃ tail, Text.before '\n' tail = [] ∧
      text.drop (lineStart (text.splitOn '\n') number) = line ++ tail := by
  rcases exists_isLine held with ⟨front, back, isLine, _, size⟩
  refine ⟨isLine.oneLine, back, ?_, size ▸ isLine.drop_front⟩
  exact Text.before_append_mark [] back isLine.ends

theorem exists_line_of_le {text : Text} {position : Nat} (within : position ≤ text.length) :
    ∃ line, (text.splitOn '\n')[(text.take position).count '\n']? = some line ∧
      lineStart (text.splitOn '\n') ((text.take position).count '\n') ≤ position ∧
      line.drop (position - lineStart (text.splitOn '\n') ((text.take position).count '\n')) =
        Text.before '\n' (text.drop position) := by
  rcases exists_isLine_of_le within with ⟨front, line, back, isLine, ahead, onLine⟩
  rw [isLine.count_take ahead onLine, isLine.numbered.2]
  exact ⟨line, isLine.numbered.1, ahead, (isLine.before_drop ahead onLine).symm⟩

theorem count_take_of_line {text line : Text} {number position : Nat}
    (held : (text.splitOn '\n')[number]? = some line)
    (ahead : lineStart (text.splitOn '\n') number ≤ position)
    (within : position ≤ lineStart (text.splitOn '\n') number + line.length) :
    (text.take position).count '\n' = number := by
  rcases exists_isLine held with ⟨front, back, isLine, counted, size⟩
  rw [← size] at ahead within
  rw [isLine.count_take ahead within, counted]

/-! ## Columns -/

theorem prefix_drop_of_column? {piece line : Text} {column : Nat}
    (found : column? piece line = some column) : piece <+: line.drop column := by
  rw [column?] at found
  split at found
  · next ends =>
      cases found
      rcases List.isSuffixOf_iff_suffix.mp ends with ⟨front, rfl⟩
      exact ⟨[], by rw [List.length_append, Nat.add_sub_cancel, List.drop_left, List.append_nil]⟩
  · exact (Text.isLeast_of_find? found).1.2

/-- What a position is carried to: the beginning of the line, the column of the inline line in it,
and the place of the position in the inline line. -/
theorem position?_eq_some {lines : List Text} {leaf : Markup.Leaf} {position found : Nat}
    (carried : (Location.of lines leaf position).position? = some found) :
    ∃ line column,
      lines[leaf.line + (leaf.content.take position).count '\n']? = some line ∧
      column? (Text.trimEnd (((leaf.content.splitOn '\n')[
        (leaf.content.take position).count '\n']?).getD [])) line.trimEnd = some column ∧
      found = lineStart lines (leaf.line + (leaf.content.take position).count '\n') + column +
        (position - lineStart (leaf.content.splitOn '\n')
          ((leaf.content.take position).count '\n')) := by
  unfold Location.of at carried
  dsimp only at carried
  rcases Option.bind_eq_some_iff.mp carried with ⟨line, held, carried⟩
  rcases Option.bind_eq_some_iff.mp carried with ⟨column, stands, carried⟩
  exact ⟨line, column, held, stands, (Option.some.inj carried).symm⟩

end Location
end Crosslink

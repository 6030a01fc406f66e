import Crosslink.Proofs.Link.Location

namespace Crosslink
namespace Location

/-!
What is seen where a position is carried to.  A run of inline text lacks the marks of its
containers and the blank characters around its lines, so a line of the document is longer than the
inline line that was read from it, and longer on both sides.  Only the characters that trimming
leaves of the inline line are looked for; for these the place that is found shows the same
characters, one by one.  Blank characters behind them may have no counterpart on the line.
-/

theorem getElem?_of_prefix_drop {text front line back piece : Text} {column step : Nat}
    (isLine : IsLine text front line back) (stands : piece <+: line.drop column)
    (inPiece : step < piece.length) : text[front.length + column + step]? = piece[step]? := by
  have held := List.getElem?_eq_getElem inPiece
  have inLine := Text.getElem?_of_prefix stands held
  rw [List.getElem?_drop] at inLine
  rw [held, isLine.whole, Nat.add_assoc, List.getElem?_append_right (Nat.le_add_right _ _),
    Nat.add_sub_cancel_left]
  exact Text.getElem?_of_prefix (List.prefix_append line back) inLine

/-- Where a position among the characters that trimming leaves of an inline line is carried to, the
document shows the character of the position, on the line that the position is said to lie on; and
the characters around it, from the first to the last that trimming leaves, are shown around that
place in the same order. -/
theorem position?_sound {content front line back : Text} {leaf : Markup.Leaf}
    {position offset : Nat} (own : IsLine leaf.content front line back)
    (ahead : front.length ≤ position) (within : position < front.length + line.trimEnd.length)
    (carried : (Location.of (content.splitOn '\n') leaf position).position? = some offset) :
    ∃ earlier source later place, IsLine content earlier source later ∧
      earlier.count '\n' = (Location.of (content.splitOn '\n') leaf position).line ∧
      earlier.length ≤ offset ∧ offset < earlier.length + source.length ∧
      content[offset]? = leaf.content[position]? ∧
      offset = place + (position - front.length) ∧ earlier.length ≤ place ∧
      place + line.trimEnd.length ≤ earlier.length + source.length ∧
      ∀ step < line.trimEnd.length,
        content[place + step]? = leaf.content[front.length + step]? := by
  have short := (Text.isPrefix_trimEnd line).length_le
  have number := own.count_take ahead (by omega)
  rcases position?_eq_some carried with ⟨source, column, held, stands, found⟩
  rw [number, own.numbered.1, Option.getD_some] at stands
  rw [number, own.numbered.2] at found
  rcases exists_isLine held with ⟨earlier, later, isLine, counted, size⟩
  rw [← number, ← size] at found
  have inSource : line.trimEnd <+: source.drop column :=
    (prefix_drop_of_column? stands).trans (Text.drop_prefix_drop (Text.isPrefix_trimEnd source) _)
  have fits := inSource.length_le
  rw [List.length_drop] at fits
  have shown : ∀ step < line.trimEnd.length,
      content[earlier.length + column + step]? = leaf.content[front.length + step]? := by
    intro step inPiece
    have ownPiece : line.trimEnd <+: line.drop 0 := Text.isPrefix_trimEnd line
    rw [getElem?_of_prefix_drop isLine inSource inPiece,
      ← getElem?_of_prefix_drop own ownPiece inPiece, Nat.add_zero]
  have same := shown (position - front.length) (by omega)
  rw [← found, Nat.add_sub_cancel' ahead] at same
  exact ⟨earlier, source, later, earlier.length + column, isLine, counted, by omega, by omega, same,
    found, Nat.le_add_right _ _, by omega, shown⟩

/-- A link in a quotation, with a blank character behind it on the inline line and another one on
the line of the document. -/
theorem position?_sound_quoted :
    let content : Text := "> a\r\n> [x](b.md) \r\n> c"
    let leaf : Markup.Leaf := { content := "a\n[x](b.md) \nc", line := 0 }
    let front : Text := "a\n"
    let line : Text := "[x](b.md) "
    IsLine leaf.content front line "\nc" ∧ front.length ≤ 6 ∧
      6 < front.length + line.trimEnd.length ∧
      (Location.of (content.splitOn '\n') leaf 6).position? = some 11 ∧
      ∃ earlier source later place, IsLine content earlier source later ∧
        earlier.count '\n' = (Location.of (content.splitOn '\n') leaf 6).line ∧
        earlier.length ≤ 11 ∧ 11 < earlier.length + source.length ∧
        content[11]? = leaf.content[6]? ∧
        11 = place + (6 - front.length) ∧ earlier.length ≤ place ∧
        place + line.trimEnd.length ≤ earlier.length + source.length ∧
        ∀ step < line.trimEnd.length,
          content[place + step]? = leaf.content[front.length + step]? :=
  have own : IsLine ("a\n[x](b.md) \nc" : Text) "a\n" "[x](b.md) " "\nc" :=
    ⟨by decide, by decide, .inr ⟨"a", by decide⟩, .inr ⟨"c", by decide⟩⟩
  have carried : (Location.of (("> a\r\n> [x](b.md) \r\n> c" : Text).splitOn '\n')
      { content := "a\n[x](b.md) \nc", line := 0 } 6).position? = some 11 := by decide
  ⟨own, by decide, by decide, carried, position?_sound own (by decide) (by decide) carried⟩

end Location
end Crosslink

import Crosslink.Proofs.Markup.Spelling

namespace Crosslink
namespace Markup

/-!
Texts that define nothing.  A definition of a reference link begins with a label and a colon right
behind it.  The scan for the label draws line after line of the frame, so where no bracket of the
document stands in front of a colon, none stands so in what is drawn: behind a line that another
one follows stands a line break, and a line break is no bracket.
-/

/-- No closing bracket stands right in front of a colon. -/
def Source.Undefining (source : Source) : Prop :=
  ∀ position, source[position]? = some ']' → source[position + 1]? ≠ some ':'

theorem Source.Undefining.extract {source : Source} (undefining : source.Undefining)
    (start stop : Nat) : Source.Undefining (source.extract start stop) := by
  intro position bracket colon
  rw [Array.getElem?_extract] at bracket colon
  split at bracket
  · split at colon
    · exact undefining _ bracket colon
    · cases colon
  · cases bracket

namespace Frame

variable {frame : Frame} {number : Nat}

/-- Behind every line that is not empty stands a line break, if a line follows that is not empty. -/
def Parted (frame : Frame) : Prop :=
  ∀ number, (frame.line number).isEmpty = false → (frame.line (number + 1)).isEmpty = false →
    frame.source[(frame.line number).stop]? = some '\n'

theorem Lies.parted (lies : frame.Lies) : frame.Parted := by
  intro number nonempty nonemptyNext
  rw [Line.isEmpty, decide_eq_false_iff_not, Nat.not_le] at nonempty nonemptyNext
  exact (lies number).breaks_of_next nonempty (lies (number + 1)) nonemptyNext

theorem Parted.back?_extract (parted : frame.Parted) (nonempty : (frame.line number).isEmpty = false)
    (nonemptyNext : (frame.line (number + 1)).isEmpty = false) :
    (frame.source.extract (frame.line number).text ((frame.line number).stop + 1)).back? =
      some '\n' := by
  have breaks := parted number nonempty nonemptyNext
  have within := (Array.getElem?_eq_some_iff.mp breaks).1
  rw [Line.isEmpty, decide_eq_false_iff_not, Nat.not_le] at nonempty
  have last : min ((frame.line number).stop + 1) frame.source.size - (frame.line number).text - 1 =
      (frame.line number).stop - (frame.line number).text := by omega
  rw [Array.back?_eq_getElem?, Array.size_extract, last, Array.getElem?_extract,
    if_pos (by omega), Nat.add_sub_cancel' nonempty.le, breaks]

end Frame

namespace Drawn

variable {frame : Frame} {drawn more : Drawn}

/-- No bracket of what has been drawn stands in front of a colon, and what has been drawn ends with
a line break if a line follows that is not empty. -/
structure Undefining (frame : Frame) (drawn : Drawn) : Prop where
  text : drawn.text.Undefining
  ends : (frame.line drawn.next).isEmpty = false → drawn.text.back? = some '\n'

/-- The definition may go on in a line that is not empty. -/
theorem exists_of_draw? (found : draw? frame drawn = some more) :
    (frame.line drawn.next).isEmpty = false ∧ more.next = drawn.next + 1 ∧
      more.text = drawn.text ++ frame.source.extract (frame.line drawn.next).text
        ((frame.line drawn.next).stop + 1) := by
  rcases Option.map_eq_some_iff.mp found with ⟨line, goesOn, rfl⟩
  unfold nextLine? at goesOn
  dsimp only at goesOn
  split at goesOn
  · cases goesOn
  · next further =>
      split at goesOn
      · cases goesOn
      · cases goesOn
        rw [Bool.or_eq_true, not_or] at further
        exact ⟨Bool.eq_false_iff.mpr further.2, rfl, congrArg (drawn.text ++ ·) Array.toArray_toList⟩

namespace Undefining

variable (undefining : frame.source.Undefining) (parted : frame.Parted)
include undefining parted

theorem draw (sound : drawn.Undefining frame) (found : draw? frame drawn = some more) :
    more.Undefining frame := by
  rcases exists_of_draw? found with ⟨nonempty, next, text⟩
  have ends := sound.ends nonempty
  rw [Array.back?_eq_getElem?] at ends
  constructor
  · intro position bracket colon
    rw [text, Array.getElem?_append] at bracket colon
    split at bracket
    · next inside =>
        split at colon
        · exact sound.text position bracket colon
        · next last =>
            rw [(by omega : drawn.text.size - 1 = position), bracket] at ends
            cases ends
    · next behind =>
        rw [if_neg (by omega), Nat.sub_add_comm (Nat.not_lt.mp behind)] at colon
        exact undefining.extract _ _ _ bracket colon
  · intro nonemptyNext
    have own := parted.back?_extract nonempty (next ▸ nonemptyNext)
    rw [text, Array.back?_append, own]
    rfl

theorem drawMore (sound : drawn.Undefining frame) : (drawMore frame drawn).Undefining frame := by
  rw [Drawn.drawMore]
  cases found : draw? frame drawn with
  | none => exact sound
  | some more => exact sound.draw undefining parted found

/-- No colon stands behind the bracket that closes the label. -/
theorem labelEnd? {fuel position : Nat} {closed : Nat × Drawn} (sound : drawn.Undefining frame)
    (found : Drawn.labelEnd? frame fuel position drawn = some closed) :
    closed.2.text.has (closed.1 + 1) ':' = false := by
  induction fuel generalizing position drawn with
  | zero => cases found
  | succ fuel inductionHypothesis =>
      have more := sound.drawMore undefining parted
      rw [Drawn.labelEnd?] at found
      split at found
      · cases found
      · next c held =>
          split at found
          · cases found
          split at found
          · next bracket =>
              cases found
              exact Bool.eq_false_iff.mpr fun colon =>
                sound.text position (bracket ▸ held) (Source.has_iff.mp colon)
          split at found
          · exact inductionHypothesis more found
          split at found
          · split at found
            · exact inductionHypothesis more found
            · exact inductionHypothesis sound found
          · exact inductionHypothesis sound found

end Undefining

end Drawn

/-- Nothing is defined where no bracket stands in front of a colon. -/
theorem Frame.definition?_eq_none {frame : Frame} {number : Nat}
    (undefining : frame.source.Undefining) (parted : frame.Parted)
    (nonempty : (frame.line number).isEmpty = false) : frame.definition? number = none := by
  have opening : Drawn.Undefining frame
      { text := frame.source.extract (frame.line number).text ((frame.line number).stop + 1)
        next := number + 1 } :=
    ⟨undefining.extract _ _, parted.back?_extract nonempty⟩
  unfold Frame.definition?
  dsimp only
  split
  · rfl
  · refine Option.bind_eq_none_iff.mpr fun closed found => ?_
    have noColon := opening.labelEnd? undefining parted found
    rw [noColon, Bool.not_false, if_pos rfl]
    rfl

end Markup
end Crosslink

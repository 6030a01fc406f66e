import Crosslink.Markup.Destination
import Crosslink.Proofs.Text.Pieces

namespace Crosslink
namespace Markup

/-!
Taking out escapes and character references.  What is taken out never grows a text: an escape
stands for one of its own characters, and a reference is longer than what it stands for.  A text
without marks of either kind stays as it is.
-/

/-! ## What a reference is -/

theorem digitsUpTo?_eq_some {isDigit : Char → Bool} {most : Nat} {text digits : Text}
    (found : digitsUpTo? isDigit most text = some digits) :
    (∃ more, text = digits ++ ';' :: more) ∧ ∀ c ∈ digits, isDigit c = true := by
  unfold digitsUpTo? at found
  dsimp only at found
  split at found
  · next ends =>
      cases found
      rw [Bool.and_eq_true] at ends
      rcases List.isPrefixOf_iff_prefix.mp ends.2 with ⟨more, closed⟩
      refine ⟨⟨more, ?_⟩, fun c held => List.mem_takeWhile_imp held⟩
      have cut := List.prefix_iff_eq_append.mp (List.takeWhile_prefix isDigit (l := text))
      rw [← closed] at cut
      exact cut.symm
  · cases found

/-- A reference begins with a body and the semicolon behind it, which stand on one line; the length
counts the semicolon and the mark in front of the body, too. -/
structure Referring (text : Text) (length : Nat) : Prop where
  closed : ∃ body more, text = body ++ ';' :: more ∧ body.length + 2 = length ∧ '\n' ∉ body

theorem Referring.length_le {text : Text} {length : Nat} (referring : Referring text length) :
    length ≤ text.length + 1 := by
  rcases referring.closed with ⟨body, more, rfl, rfl, _⟩
  rw [List.length_append, List.length_cons]
  omega

theorem Referring.cons {text : Text} {length : Nat} (referring : Referring text length) {c : Char}
    (notBreak : c ≠ '\n') : Referring (c :: text) (length + 1) := by
  rcases referring.closed with ⟨body, more, rfl, rfl, oneLine⟩
  refine ⟨c :: body, more, rfl, rfl, fun held => ?_⟩
  rcases List.mem_cons.mp held with same | later
  · exact notBreak same.symm
  · exact oneLine later

theorem referring_of_digitsUpTo? {isDigit : Char → Bool} {most : Nat} {text digits : Text}
    (found : digitsUpTo? isDigit most text = some digits) (notDigit : isDigit '\n' = false) :
    Referring text (digits.length + 2) := by
  rcases digitsUpTo?_eq_some found with ⟨⟨more, rfl⟩, each⟩
  refine ⟨digits, more, rfl, rfl, fun held => ?_⟩
  rw [each _ held] at notDigit
  cases notDigit

theorem numericCode?_eq_some {mostDecimal mostHex : Nat} {text : Text} {code length : Nat}
    (found : numericCode? mostDecimal mostHex text = some (code, length)) :
    ∃ shorter, length = shorter + 1 ∧ Referring text shorter := by
  unfold numericCode? at found
  split at found
  · next c rest =>
      split at found
      · next isHex =>
          rcases Option.map_eq_some_iff.mp found with ⟨digits, read, made⟩
          cases made
          refine ⟨_, rfl, (referring_of_digitsUpTo? read (by decide)).cons ?_⟩
          rintro rfl
          exact absurd isHex (by decide)
      · rcases Option.map_eq_some_iff.mp found with ⟨digits, read, made⟩
        cases made
        exact ⟨_, rfl, referring_of_digitsUpTo? read (by decide)⟩
  · cases found

theorem length_le_of_itemValue? {name item value : Text}
    (found : itemValue? name item = some value) : value.length ≤ 2 := by
  unfold itemValue? at found
  split at found
  · cases found
    rw [List.length_map, List.length_take]
    exact Nat.min_le_left _ _
  · cases found

theorem length_le_of_namedCharacter? {name value : Text}
    (found : namedCharacter? name = some value) : value.length ≤ 2 := by
  unfold namedCharacter? at found
  split at found
  · cases found
  · rcases List.exists_of_findSome?_eq_some found with ⟨item, _, made⟩
    exact length_le_of_itemValue? made

theorem named?_eq_some {text value : Text} {length : Nat} (found : named? text = some (value, length)) :
    value.length ≤ 2 ∧ 4 ≤ length ∧ Referring text length := by
  unfold named? at found
  dsimp only at found
  split at found
  · next ends =>
      rw [Bool.and_eq_true, Bool.and_eq_true, decide_eq_true_iff] at ends
      rcases List.isPrefixOf_iff_prefix.mp ends.2 with ⟨more, closed⟩
      rcases Option.map_eq_some_iff.mp found with ⟨meant, read, made⟩
      cases made
      refine ⟨length_le_of_namedCharacter? read, Nat.add_le_add_right ends.1.1 2, _, more, ?_, rfl,
        fun held => ?_⟩
      · have cut := List.prefix_iff_eq_append.mp
          (List.takeWhile_prefix (fun c => isLatin c || isAsciiDigit c) (l := text))
        rw [← closed] at cut
        exact cut.symm
      · exact absurd (List.mem_takeWhile_imp held) (by decide)
  · cases found

/-- A reference stands in its text and is longer than what it stands for. -/
theorem reference?_eq_some {text value : Text} {length : Nat}
    (found : reference? text = some (value, length)) :
    value.length < length ∧ Referring text length := by
  unfold reference? at found
  split at found
  · next digits =>
      split at found
      · next code size read =>
          rcases numericCode?_eq_some read with ⟨shorter, rfl, referring⟩
          split at found
          · cases found
            rcases referring.closed with ⟨_, _, _, size, _⟩
            exact ⟨by rw [List.length_singleton]; omega, referring.cons (by decide)⟩
          · cases found
      · cases found
  · rcases named?_eq_some found with ⟨short, long, referring⟩
    exact ⟨by omega, referring⟩

/-! ## The length of what is left -/

theorem length_unescapeAfter_le (passed : Nat) (text : Text) :
    (unescapeAfter passed text).length ≤ text.length - passed := by
  fun_induction unescapeAfter passed text with
  | case1 passed => exact Nat.zero_le _
  | case2 passed c rest inductionHypothesis =>
      rw [List.length_cons]
      omega
  | case3 c rest escaped inductionHypothesis =>
      simp only [List.length_cons] at inductionHypothesis ⊢
      omega
  | case4 c rest plain inductionHypothesis =>
      simp only [List.length_cons] at inductionHypothesis ⊢
      omega
  | case5 => exact Nat.le_refl 1
  | case6 rest value length found inductionHypothesis =>
      rcases reference?_eq_some found with ⟨short, referring⟩
      have bound := referring.length_le
      rcases referring.closed with ⟨_, _, _, size, _⟩
      rw [List.length_append, List.length_cons]
      omega
  | case7 rest plain inductionHypothesis =>
      simp only [List.length_cons] at inductionHypothesis ⊢
      omega
  | case8 c rest notEscape notReference inductionHypothesis =>
      simp only [List.length_cons] at inductionHypothesis ⊢
      omega

/-- A text does not grow when escapes and references are taken out. -/
theorem length_unescape_le (text : Text) : (unescape text).length ≤ text.length :=
  length_unescapeAfter_le 0 text

theorem unescape_of_plain {text : Text} (noEscape : '\\' ∉ text) (noReference : '&' ∉ text) :
    unescape text = text := by
  induction text with
  | nil => rfl
  | cons c rest inductionHypothesis =>
      rw [List.mem_cons, not_or] at noEscape noReference
      have step : unescape (c :: rest) = c :: unescape rest :=
        unescapeAfter.eq_6 c rest (fun same => noEscape.1 same.symm)
          (fun same => noReference.1 same.symm)
      rw [step, inductionHypothesis noEscape.2 noReference.2]

/-! ## Where what is taken out stood -/

/-- On the first line of a text stands something that can be seen, no further to the front than a
place. -/
def VisibleFrom (place : Nat) (text : Text) : Prop :=
  ∃ other c, place ≤ other ∧ (text.before '\n')[other]? = some c ∧ isBlank c = false

theorem VisibleFrom.mono {place later : Nat} {text : Text} (seen : VisibleFrom later text)
    (ahead : place ≤ later) : VisibleFrom place text := by
  rcases seen with ⟨other, c, behind, held, visible⟩
  exact ⟨other, c, ahead.trans behind, held, visible⟩

theorem VisibleFrom.append {place : Nat} {front text : Text} (seen : VisibleFrom place text)
    (oneLine : '\n' ∉ front) : VisibleFrom (front.length + place) (front ++ text) := by
  rcases seen with ⟨other, c, behind, held, visible⟩
  refine ⟨front.length + other, c, Nat.add_le_add_left behind _, ?_, visible⟩
  rw [Text.before_append _ oneLine, List.getElem?_append_right (Nat.le_add_right ..),
    Nat.add_sub_cancel_left]
  exact held

theorem VisibleFrom.cons {place : Nat} {c : Char} {text : Text} (seen : VisibleFrom place text)
    (notBreak : c ≠ '\n') : VisibleFrom (place + 1) (c :: text) := by
  have oneLine : '\n' ∉ [c] := fun held => notBreak (List.mem_singleton.mp held).symm
  have moved := seen.append oneLine
  rwa [List.length_singleton, Nat.add_comm, List.singleton_append] at moved

/-- A character that is kept moves both the carriage return and what can be seen by one. -/
private theorem visibleFrom_of_kept {c : Char} {kept rest front back : Text}
    (further : ∀ {front}, kept = front ++ '\r' :: back → '\n' ∉ front →
      VisibleFrom front.length rest)
    (made : c :: kept = front ++ '\r' :: back) (other : c ≠ '\r') (oneLine : '\n' ∉ front) :
    VisibleFrom front.length (c :: rest) := by
  cases front with
  | nil => exact absurd (List.cons.inj made).1 other
  | cons d front =>
      rcases List.cons.inj made with ⟨rfl, later⟩
      rw [List.mem_cons, not_or] at oneLine
      exact (further later oneLine.2).cons (Ne.symm oneLine.1)

/-- A carriage return that a reference stands for has the semicolon of the reference behind it; one
that is left further back is seen as before. -/
private theorem visibleFrom_of_reference {value kept rest front back : Text} {length : Nat}
    (found : reference? rest = some (value, length))
    (further : ∀ {front}, kept = front ++ '\r' :: back → '\n' ∉ front →
      VisibleFrom front.length (rest.drop (length - 1)))
    (made : value ++ kept = front ++ '\r' :: back) (oneLine : '\n' ∉ front) :
    VisibleFrom front.length ('&' :: rest) := by
  rcases reference?_eq_some found with ⟨short, referring⟩
  rcases referring.closed with ⟨body, more, rfl, rfl, inBody⟩
  have notInMarked : '\n' ∉ '&' :: body := by
    rw [List.mem_cons, not_or]
    exact ⟨by decide, inBody⟩
  rcases List.append_eq_append_iff.mp made with ⟨later, rfl, left⟩ | ⟨later, rfl, _⟩
  · have inLater : '\n' ∉ later := fun held => oneLine (List.mem_append_right value held)
    have behind := further left inLater
    have size : body.length + 2 - 1 = (body ++ [';']).length := by
      rw [List.length_append, List.length_singleton]
      omega
    rw [size, List.append_cons body ';' more, List.drop_left] at behind
    refine ((behind.cons (by decide)).append notInMarked).mono ?_
    rw [List.length_append, List.length_cons]
    omega
  · have closing : VisibleFrom 0 (';' :: more) := by
      refine ⟨0, ';', Nat.le_refl 0, ?_, by decide⟩
      rw [Text.before_cons_of_ne (by decide), List.getElem?_cons_zero]
    rw [List.length_append] at short
    refine (closing.append notInMarked).mono ?_
    rw [List.length_cons]
    omega

/-- A carriage return that the text does not hold itself was written as a reference.  The end of
the reference can be seen, and it stands no further to the front than the carriage return does in
what is left, on the first line of the text if no line break is left before. -/
theorem visibleFrom_of_unescapeAfter {passed : Nat} {text front back : Text}
    (left : unescapeAfter passed text = front ++ '\r' :: back) (absent : '\r' ∉ text)
    (oneLine : '\n' ∉ front) : VisibleFrom front.length (text.drop passed) := by
  fun_induction unescapeAfter passed text generalizing front with
  | case1 passed => exact absurd left (by simp)
  | case2 passed c rest inductionHypothesis =>
      exact inductionHypothesis left (fun held => absent (List.mem_cons_of_mem c held)) oneLine
  | case3 c rest escaped inductionHypothesis =>
      rw [List.mem_cons, not_or] at absent
      have notReturn : c ≠ '\r' := fun same => absent.2 (same ▸ List.mem_cons_self)
      have seen := visibleFrom_of_kept (fun made => inductionHypothesis made absent.2) left
        notReturn oneLine
      exact (seen.cons (by decide)).mono (Nat.le_succ _)
  | case4 c rest plain inductionHypothesis =>
      rw [List.mem_cons, not_or] at absent
      exact visibleFrom_of_kept (fun made => inductionHypothesis made absent.2) left (by decide)
        oneLine
  | case5 =>
      rcases List.append_eq_singleton_iff.mp left.symm with ⟨_, same⟩ | ⟨_, same⟩
      · exact absurd (List.cons.inj same).1 (by decide)
      · cases same
  | case6 rest value length found inductionHypothesis =>
      rw [List.mem_cons, not_or] at absent
      exact visibleFrom_of_reference found (fun made => inductionHypothesis made absent.2) left
        oneLine
  | case7 rest plain inductionHypothesis =>
      rw [List.mem_cons, not_or] at absent
      exact visibleFrom_of_kept (fun made => inductionHypothesis made absent.2) left (by decide)
        oneLine
  | case8 c rest notEscape notReference inductionHypothesis =>
      rw [List.mem_cons, not_or] at absent
      exact visibleFrom_of_kept (fun made => inductionHypothesis made absent.2) left
        (Ne.symm absent.1) oneLine

end Markup
end Crosslink

import Crosslink.Proofs.Markup.Source
import Crosslink.Proofs.Markup.Unescape
import Crosslink.Proofs.Text.Pieces
import Crosslink.Text.Blank

namespace Crosslink
namespace Markup

/-!
What a destination is read from.  A scan for a destination goes forward inside its stretch, and it
passes over a line break only behind a backslash.  So the stretch that a destination was read from
is at least as long as the destination, and its first line shows something unless the destination
is blank altogether.  A carriage return that only the destination holds was written as a
reference, which can be seen.
-/

/-- Some character of the text can be seen. -/
def Visible (text : Text) : Prop :=
  ∃ c ∈ text, isBlank c = false

/-- A stretch of text from which an href may have been read. -/
structure Writes (raw href : Text) : Prop where
  /-- The stretch is at least as long as the href. -/
  length_le : href.length ≤ raw.length
  /-- If anything of the href can be seen, so can something of the first line of the stretch. -/
  visible : Visible href → Visible (raw.before '\n')
  /-- A carriage return of the href that the stretch does not hold stands no further back than
  something that can be seen of the first line of the stretch, or behind a line break. -/
  returns : ∀ front back, href = front ++ '\r' :: back → '\r' ∉ raw → '\n' ∉ front →
    ∃ place c, front.length ≤ place ∧ (raw.before '\n')[place]? = some c ∧ isBlank c = false

/-- An href that was not written may have been read from anywhere. -/
theorem Writes.empty (raw : Text) : Writes raw [] where
  length_le := Nat.zero_le _
  visible := fun ⟨_, held, _⟩ => absurd held List.not_mem_nil
  returns _ _ same _ _ := absurd same (by simp)

/-- Every line break of the text stands behind a backslash. -/
def BreaksEscaped (text : Text) : Prop :=
  ∀ front back, text = front ++ '\n' :: back → ∃ more, front = more ++ ['\\']

theorem Writes.unescape {raw : Text} (escaped : BreaksEscaped raw) :
    Writes raw (unescape raw) where
  length_le := length_unescape_le raw
  visible := by
    rintro ⟨c, held, seen⟩
    by_contra unseen
    have blank : ∀ d ∈ raw.before '\n', isBlank d = true := by
      intro d member
      by_contra visible
      exact unseen ⟨d, member, Bool.eq_false_iff.mpr visible⟩
    -- A line break would show the backslash before it.
    have whole : raw.before '\n' = raw := by
      rcases Text.fromFirst_eq_nil_or_cons '\n' raw with ends | ⟨back, begins⟩
      · have joined := Text.before_append_fromFirst '\n' raw
        rw [ends, List.append_nil] at joined
        exact joined
      · have joined := Text.before_append_fromFirst '\n' raw
        rw [begins] at joined
        rcases escaped _ _ joined.symm with ⟨more, front⟩
        have impossible := blank '\\' (front ▸ List.mem_append_right more List.mem_cons_self)
        exact absurd impossible (by decide)
    rw [whole] at blank
    have noMark {d : Char} (shows : isBlank d = false) : d ∉ raw := by
      intro member
      rw [blank d member] at shows
      cases shows
    rw [unescape_of_plain (noMark (by decide)) (noMark (by decide))] at held
    rw [blank c held] at seen
    cases seen
  returns _ _ left absent oneLine := visibleFrom_of_unescapeAfter left absent oneLine

/-! ## Scans for the end of a destination -/

variable {source : Source}

/-- Every line break between two positions stands behind a backslash that does so, too. -/
def EscapedBetween (source : Source) (start stop : Nat) : Prop :=
  ∀ place, start ≤ place → place < stop → source[place]? = some '\n' →
    start < place ∧ source[place - 1]? = some '\\'

theorem EscapedBetween.refl (position : Nat) : EscapedBetween source position position := by
  intro place ahead before
  omega

/-- A character that is no line break may come first. -/
theorem EscapedBetween.cons {position last : Nat} {c : Char} (held : source[position]? = some c)
    (notBreak : c ≠ '\n') (rest : EscapedBetween source (position + 1) last) :
    EscapedBetween source position last := by
  intro place ahead before found
  rcases Nat.eq_or_lt_of_le ahead with rfl | later
  · rw [held] at found
    exact absurd (Option.some.inj found) notBreak
  · have := rest place later before found
    exact ⟨by omega, this.2⟩

/-- So may a backslash and any character behind it. -/
theorem EscapedBetween.cons_escape {position last : Nat} (held : source[position]? = some '\\')
    (rest : EscapedBetween source (position + 2) last) : EscapedBetween source position last := by
  intro place ahead before found
  rcases Nat.eq_or_lt_of_le ahead with rfl | later
  · rw [held] at found
    exact absurd (Option.some.inj found) (by decide)
  · rcases Nat.eq_or_lt_of_le later with rfl | behind
    · exact ⟨later, held⟩
    · have := rest place behind before found
      exact ⟨by omega, this.2⟩

/-- The stretch between two positions has its line breaks behind backslashes if they stand so in
the text. -/
theorem EscapedBetween.between {start stop : Nat} (escaped : EscapedBetween source start stop) :
    BreaksEscaped (source.between start stop) := by
  intro front back cut
  have place : (source.between start stop)[front.length]? = some '\n' := by
    rw [cut, List.getElem?_append_right (Nat.le_refl _), Nat.sub_self, List.getElem?_cons_zero]
  have inText {place : Nat} {c : Char} (found : (source.between start stop)[place]? = some c) :
      start + place < stop ∧ source[start + place]? = some c := by
    rw [Source.between_eq, List.getElem?_drop, List.getElem?_take] at found
    split at found
    · next inside => exact ⟨inside, by rw [← Array.getElem?_toList, found]⟩
    · cases found
  have there := inText place
  have behind := escaped (start + front.length) (Nat.le_add_right _ _) there.1 there.2
  rcases List.eq_nil_or_concat front with empty | ⟨more, c, split⟩
  · rw [empty, List.length_nil] at behind
    omega
  · have previous : (source.between start stop)[more.length]? = some c := by
      rw [cut, split, List.concat_eq_append, List.append_assoc,
        List.getElem?_append_right (Nat.le_refl _), Nat.sub_self]
      rfl
    have marked := (inText previous).2
    have size : start + front.length - 1 = start + more.length := by
      rw [split, List.length_concat]
      omega
    rw [← size, behind.2] at marked
    exact ⟨more, by rw [split, List.concat_eq_append, Option.some.inj marked]⟩

theorem angleEnd?_eq_some {stop fuel position last : Nat}
    (found : angleEnd? source stop fuel position = some last) :
    position ≤ last ∧ last < stop ∧ EscapedBetween source position last := by
  induction fuel generalizing position with
  | zero => cases found
  | succ fuel inductionHypothesis =>
      rw [angleEnd?] at found
      split at found
      · cases found
      · next inside =>
          split at found
          · cases found
          · next c held =>
              split at found
              · cases found
              · next notEnd =>
                  rw [Bool.or_eq_true, decide_eq_true_iff, decide_eq_true_iff, not_or] at notEnd
                  split at found
                  · cases found
                    exact ⟨Nat.le_refl _, Nat.lt_of_not_le inside, EscapedBetween.refl _⟩
                  · split at found
                    · next escape =>
                        rw [Bool.and_eq_true, decide_eq_true_iff] at escape
                        have further := inductionHypothesis found
                        exact ⟨by omega, further.2.1,
                          further.2.2.cons_escape (escape.1 ▸ held)⟩
                    · have further := inductionHypothesis found
                      exact ⟨by omega, further.2.1, further.2.2.cons held notEnd.1⟩

private theorem eq_of_ended {opened position last : Nat}
    (ended : (if opened = 0 then some position else none) = some last) : last = position := by
  split at ended
  · exact (Option.some.inj ended).symm
  · cases ended

/-- One turn of the scan for the end of a bare destination: it ends here, or it passes over a
character that is no line break, whatever it makes of the parentheses, or over a backslash and the
character behind it. -/
theorem bareEnd?_succ_cases {stop fuel opened position last : Nat}
    (found : bareEnd? source stop (fuel + 1) opened position = some last) :
    last = position ∨
      (position < stop ∧ ∃ opened c, source[position]? = some c ∧ c ≠ '\n' ∧
        bareEnd? source stop fuel opened (position + 1) = some last) ∨
      (position + 1 < stop ∧ source[position]? = some '\\' ∧
        bareEnd? source stop fuel opened (position + 2) = some last) := by
  rw [bareEnd?] at found
  split at found
  · exact Or.inl (eq_of_ended found)
  · next within =>
      have inside : position < stop := Nat.lt_of_not_le within
      split at found
      · exact Or.inl (eq_of_ended found)
      · next c held =>
          split at found
          · exact Or.inl (eq_of_ended found)
          · next plain =>
              have notBreak : c ≠ '\n' := by
                intro same
                rw [same] at plain
                exact plain (by decide)
              split at found
              · next escape =>
                  rw [Bool.and_eq_true, decide_eq_true_iff, decide_eq_true_iff] at escape
                  split at found
                  · exact Or.inl (eq_of_ended found)
                  · exact Or.inr (Or.inr ⟨escape.2, escape.1 ▸ held, found⟩)
              · split at found
                · split at found
                  · exact Or.inr (Or.inl ⟨inside, _, c, held, notBreak, found⟩)
                  · cases found
                · split at found
                  · split at found
                    · exact Or.inl (Option.some.inj found).symm
                    · exact Or.inr (Or.inl ⟨inside, _, c, held, notBreak, found⟩)
                  · exact Or.inr (Or.inl ⟨inside, _, c, held, notBreak, found⟩)

theorem bareEnd?_eq_some {stop fuel opened position last : Nat} (inside : position ≤ stop)
    (found : bareEnd? source stop fuel opened position = some last) :
    position ≤ last ∧ last ≤ stop ∧ EscapedBetween source position last := by
  induction fuel generalizing opened position with
  | zero =>
      cases eq_of_ended found
      exact ⟨Nat.le_refl _, inside, EscapedBetween.refl _⟩
  | succ fuel inductionHypothesis =>
      rcases bareEnd?_succ_cases found with
        rfl | ⟨within, opened, c, held, notBreak, later⟩ | ⟨within, escape, later⟩
      · exact ⟨Nat.le_refl _, inside, EscapedBetween.refl _⟩
      · have further := inductionHypothesis within later
        exact ⟨by omega, further.2.1, further.2.2.cons held notBreak⟩
      · have further := inductionHypothesis within later
        exact ⟨by omega, further.2.1, further.2.2.cons_escape escape⟩

/-- Where the text of a destination begins: behind the bracket, if one opens it. -/
def destinationText (source : Source) (position : Nat) : Nat :=
  if source.has position '<' then position + 1 else position

/-- A destination is read from a stretch of the text. -/
theorem destination?_eq_some {position stop : Nat} {href : Text} {behind : Nat}
    (inside : position ≤ stop) (found : destination? source position stop = some (href, behind)) :
    ∃ last, destinationText source position ≤ last ∧ last ≤ behind ∧ behind ≤ stop ∧
      Writes (source.between (destinationText source position) last) href := by
  unfold destination? at found
  unfold destinationText
  split at found
  · next angled =>
      rcases Option.map_eq_some_iff.mp found with ⟨last, ended, made⟩
      have bounds := angleEnd?_eq_some ended
      cases made
      rw [if_pos angled]
      exact ⟨last, bounds.1, Nat.le_succ last, bounds.2.1, Writes.unescape bounds.2.2.between⟩
  · next bare =>
      rw [if_neg bare]
      split at found
      · next last ended =>
          split at found
          · cases found
          · have bounds := bareEnd?_eq_some inside ended
            cases found
            exact ⟨_, bounds.1, Nat.le_refl _, bounds.2.1, Writes.unescape bounds.2.2.between⟩
      · cases found

theorem le_of_destination? {position stop : Nat} {href : Text} {behind : Nat}
    (inside : position ≤ stop) (found : destination? source position stop = some (href, behind)) :
    position ≤ behind ∧ behind ≤ stop := by
  rcases destination?_eq_some inside found with ⟨last, ahead, ended, within, _⟩
  unfold destinationText at ahead
  split at ahead <;> omega

/-! ## Titles -/

theorem titleEnd_eq_closed {stop : Nat} {closer : Char} {start : Nat} {soFar : Text}
    {fuel position : Nat} {text : Text} {behind : Nat}
    (found : titleEnd source stop closer start soFar fuel position = .closed text behind) :
    position < behind := by
  induction fuel generalizing position with
  | zero => cases found
  | succ fuel inductionHypothesis =>
      rw [titleEnd] at found
      split at found
      · cases found
      · split at found
        · cases found
          exact Nat.lt_succ_self position
        · split at found
          · cases found
          · split at found
            · have := inductionHypothesis found
              omega
            · have := inductionHypothesis found
              omega

theorem titleAt_eq_closed {position stop : Nat} {text : Text} {behind : Nat}
    (found : titleAt source position stop = .closed text behind) : position < behind := by
  unfold titleAt at found
  split at found
  · cases found
  · split at found
    · have := titleEnd_eq_closed found
      omega
    · cases found

end Markup
end Crosslink

import Mathlib.Order.Bounds.Basic
import Crosslink.Proofs.Text.Pieces
import Crosslink.Text.Basic
import Crosslink.Text.Blank

namespace Crosslink

/-!
Stretches of a text: what it begins with, and what trimming leaves of it.
-/

namespace Text

/-! ## Prefixes -/

theorem drop_prefix_drop {first text : Text} (begins : first <+: text) (place : Nat) :
    first.drop place <+: text.drop place := by
  rcases begins with ⟨rest, rfl⟩
  rw [List.drop_append]
  exact List.prefix_append _ _

theorem getElem?_of_prefix {first text : Text} (begins : first <+: text) {place : Nat} {c : Char}
    (held : first[place]? = some c) : text[place]? = some c := by
  rcases begins with ⟨rest, rfl⟩
  rwa [List.getElem?_append_left (List.getElem?_eq_some_iff.mp held).1]

/-- What stands before the first mark in a prefix stands there in the whole text. -/
theorem isPrefix_before (stop : Char) {first text : Text} (begins : first <+: text) :
    before stop first <+: before stop text := by
  rcases begins with ⟨rest, rfl⟩
  by_cases held : stop ∈ first
  · exact ⟨[], by rw [List.append_nil, before_append_of_mem rest held]⟩
  · rw [before_append rest held, before_of_not_mem held]
    exact List.prefix_append _ _

/-! ## Trimming -/

theorem exists_trimEnd_append (text : Text) :
    ∃ tail, text = text.trimEnd ++ tail ∧ ∀ c ∈ tail, isBlank c = true := by
  refine ⟨(text.reverse.takeWhile isBlank).reverse, ?_, fun c held => ?_⟩
  · rw [trimEnd, dropEndWhile, ← List.reverse_append, List.takeWhile_append_dropWhile,
      List.reverse_reverse]
  · exact List.mem_takeWhile_imp (List.mem_reverse.mp held)

/-- Blanks at the end do not matter for what is left. -/
theorem trimEnd_append {tail : Text} (blank : ∀ c ∈ tail, isBlank c = true) (text : Text) :
    (text ++ tail).trimEnd = text.trimEnd := by
  rw [trimEnd, trimEnd, dropEndWhile, dropEndWhile, List.reverse_append,
    List.dropWhile_append_of_pos fun c held => blank c (List.mem_reverse.mp held)]

theorem isPrefix_trimEnd (text : Text) : text.trimEnd <+: text := by
  rcases exists_trimEnd_append text with ⟨tail, whole, _⟩
  exact ⟨tail, whole.symm⟩

theorem lt_length_trimEnd {text : Text} {place : Nat} {c : Char} (held : text[place]? = some c)
    (seen : isBlank c = false) : place < text.trimEnd.length := by
  rcases exists_trimEnd_append text with ⟨tail, whole, blank⟩
  by_contra behind
  rw [whole, List.getElem?_append_right (Nat.le_of_not_lt behind)] at held
  rw [blank c (List.mem_of_getElem? held)] at seen
  cases seen

theorem prefix_drop_trimEnd {text word : Text} {place : Nat} (stands : word <+: text.drop place)
    (seen : ∀ c ∈ word, isBlank c = false) : word <+: text.trimEnd.drop place := by
  rcases List.eq_nil_or_concat word with rfl | ⟨front, last, rfl⟩
  · exact List.nil_prefix
  · have held : text[place + front.length]? = some last := by
      rcases stands with ⟨rest, whole⟩
      rw [← List.getElem?_drop, ← whole, List.concat_eq_append, List.append_assoc,
        List.getElem?_append_right (Nat.le_refl _), Nat.sub_self]
      rfl
    have kept := lt_length_trimEnd held (seen last (by simp))
    refine List.prefix_of_prefix_length_le stands (drop_prefix_drop (isPrefix_trimEnd text) place) ?_
    rw [List.length_concat, List.length_drop]
    omega

theorem exists_trim_append (text : Text) :
    ∃ front back, text = front ++ (text.trim ++ back) ∧ ∀ c ∈ front, isBlank c = true := by
  rcases exists_trimEnd_append text.trimStart with ⟨back, whole, _⟩
  refine ⟨text.takeWhile isBlank, back, ?_, fun c held => List.mem_takeWhile_imp held⟩
  rw [trim, ← whole, trimStart, List.takeWhile_append_dropWhile]

end Text

/-!
## Where a pattern stands in a text

A search from some place on finds the first place, counted from there, at which the pattern stands,
and finds nothing only if it stands nowhere further on.  The empty pattern stands everywhere, behind
the last character too.
-/

namespace Text

def OccursAt (pattern text : Text) (place : Nat) : Prop :=
  place ≤ text.length ∧ pattern <+: text.drop place

instance (pattern text : Text) (place : Nat) : Decidable (OccursAt pattern text place) :=
  inferInstanceAs (Decidable (_ ∧ _))

variable {pattern text : Text} {place start : Nat}

theorem occursAt_append (front pattern back : Text) :
    OccursAt pattern (front ++ (pattern ++ back)) front.length := by
  refine ⟨by rw [List.length_append]; exact Nat.le_add_right _ _, ?_⟩
  rw [List.drop_left]
  exact List.prefix_append _ _

theorem OccursAt.take_append_drop (occurs : OccursAt pattern text place) :
    text.take place ++ (pattern ++ text.drop (place + pattern.length)) = text := by
  have stands := List.prefix_iff_eq_append.mp occurs.2
  rw [List.drop_drop] at stands
  rw [stands, List.take_append_drop]

theorem OccursAt.le_length (occurs : OccursAt pattern text place) :
    place + pattern.length ≤ text.length := by
  have short := occurs.2.length_le
  rw [List.length_drop] at short
  have := occurs.1
  omega

theorem exists_occursAt_iff : (∃ place, OccursAt pattern text place) ↔ pattern <:+: text := by
  constructor
  · rintro ⟨place, occurs⟩
    exact ⟨text.take place, text.drop (place + pattern.length), by
      rw [List.append_assoc, occurs.take_append_drop]⟩
  · rintro ⟨front, back, rfl⟩
    rw [List.append_assoc]
    exact ⟨front.length, occursAt_append front pattern back⟩

theorem occursAt_cons_succ {c : Char} {rest : Text} :
    OccursAt pattern (c :: rest) (place + 1) ↔ OccursAt pattern rest place :=
  and_congr Nat.succ_le_succ_iff Iff.rfl

/-- What stands in a text behind a place is counted from that place. -/
theorem occursAt_drop (within : start ≤ text.length) :
    OccursAt pattern (text.drop start) place ↔ OccursAt pattern text (place + start) := by
  rw [OccursAt, OccursAt, List.length_drop, List.drop_drop, Nat.add_comm start]
  exact and_congr_left fun _ => Nat.le_sub_iff_add_le within

/-! ## Searching -/

theorem isLeast_of_find? (found : find? pattern text = some place) :
    IsLeast {place | OccursAt pattern text place} place := by
  induction text generalizing place with
  | nil =>
      rw [find?] at found
      split at found
      · next empty =>
          cases found
          rw [List.isEmpty_iff.mp empty]
          exact ⟨⟨Nat.le_refl 0, List.nil_prefix⟩, fun _ _ => Nat.zero_le _⟩
      · cases found
  | cons c rest inductionHypothesis =>
      rw [find?] at found
      split at found
      · next begins =>
          cases found
          exact ⟨⟨Nat.zero_le _, List.isPrefixOf_iff_prefix.mp begins⟩, fun _ _ => Nat.zero_le _⟩
      · next later =>
          rcases Option.map_eq_some_iff.mp found with ⟨further, foundLater, rfl⟩
          have least := inductionHypothesis foundLater
          refine ⟨occursAt_cons_succ.mpr least.1, fun other occurs => ?_⟩
          cases other with
          | zero => exact absurd (List.isPrefixOf_iff_prefix.mpr occurs.2) later
          | succ other => exact Nat.succ_le_succ (least.2 (occursAt_cons_succ.mp occurs))

theorem not_occursAt_of_find? (missed : find? pattern text = none) (place : Nat) :
    ¬ OccursAt pattern text place := by
  induction text generalizing place with
  | nil =>
      rw [find?] at missed
      split at missed
      · cases missed
      · next nonempty =>
          rintro ⟨_, begins⟩
          rw [List.drop_nil, List.prefix_nil] at begins
          exact nonempty (List.isEmpty_iff.mpr begins)
  | cons c rest inductionHypothesis =>
      rw [find?] at missed
      split at missed
      · cases missed
      · next later =>
          cases place with
          | zero => exact fun occurs => later (List.isPrefixOf_iff_prefix.mpr occurs.2)
          | succ place =>
              rw [occursAt_cons_succ]
              exact inductionHypothesis (Option.map_eq_none_iff.mp missed) place

theorem find?_eq_some_iff :
    find? pattern text = some place ↔ IsLeast {place | OccursAt pattern text place} place := by
  refine ⟨isLeast_of_find?, fun least => ?_⟩
  cases searched : find? pattern text with
  | none => exact absurd least.1 (not_occursAt_of_find? searched place)
  | some found => rw [(isLeast_of_find? searched).unique least]

theorem find?_eq_none_iff : find? pattern text = none ↔ ¬ pattern <:+: text := by
  rw [← exists_occursAt_iff, not_exists]
  refine ⟨not_occursAt_of_find?, fun nowhere => ?_⟩
  cases searched : find? pattern text with
  | none => rfl
  | some found => exact absurd (isLeast_of_find? searched).1 (nowhere found)

theorem findFrom?_eq_some_iff :
    findFrom? pattern text start = some place ↔
      IsLeast {place | start ≤ place ∧ OccursAt pattern text place} place := by
  rw [findFrom?]
  split
  · next within =>
      rw [Option.map_eq_some_iff]
      constructor
      · rintro ⟨further, found, rfl⟩
        have least := isLeast_of_find? found
        refine ⟨⟨Nat.le_add_left _ _, (occursAt_drop within).mp least.1⟩, ?_⟩
        rintro other ⟨behind, occurs⟩
        rcases Nat.exists_eq_add_of_le' behind with ⟨step, rfl⟩
        exact Nat.add_le_add_right (least.2 ((occursAt_drop within).mpr occurs)) start
      · rintro ⟨⟨behind, occurs⟩, first⟩
        rcases Nat.exists_eq_add_of_le' behind with ⟨step, rfl⟩
        refine ⟨step, find?_eq_some_iff.mpr ⟨(occursAt_drop within).mpr occurs, ?_⟩, rfl⟩
        intro other otherOccurs
        exact Nat.le_of_add_le_add_right
          (first ⟨Nat.le_add_left _ _, (occursAt_drop within).mp otherOccurs⟩)
  · next beyond =>
      refine iff_of_false nofun ?_
      rintro ⟨⟨behind, occurs⟩, _⟩
      exact beyond (Nat.le_trans behind occurs.1)

end Text

end Crosslink

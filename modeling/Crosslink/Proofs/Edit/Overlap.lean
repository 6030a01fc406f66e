import Crosslink.Proofs.Edit.Search
import Crosslink.Proofs.Edit.Simultaneous

namespace Crosslink
namespace Edit

/-!
What edits by position leave alone when their ranges may overlap.  An edit whose range no longer
spells its href is looked for within the window, so it can be made outside all ranges; and an edit
that shortens the text draws what lies behind it to the left, where a later edit may find it.  How
far this goes is known: on the left no further than the window, and on the right no further than
the window, the edits' own length and what they shorten the text by.
-/

/-- The number of characters by which edits shorten a text; an edit that does not shorten it counts
for nothing. -/
def shrinkage : List Replacement → Nat
  | [] => 0
  | replacement :: rest =>
    replacement.oldHref.length - replacement.newHref.length + shrinkage rest

/-- It does not matter in which order the edits are listed. -/
theorem shrinkage_eq_of_perm {edits others : List Replacement} (permuted : edits.Perm others) :
    shrinkage edits = shrinkage others := by
  induction permuted with
  | nil => rfl
  | cons replacement _ inductionHypothesis => rw [shrinkage, shrinkage, inductionHypothesis]
  | swap first second rest => exact Nat.add_left_comm _ _ _
  | trans _ _ first second => exact first.trans second

def Placed.site? (window : Int) (text : Text) (edit : Placed) : Option Nat :=
  Edit.site? window text edit.replacement.oldHref edit.start edit.stop

/-- The text before one place of a content and behind another is still there, and what lies behind
has moved to the left by no more than so many characters. -/
def Kept (content : Text) (front back drift : Nat) (text : Text) : Prop :=
  ∃ middle, text = content.take front ++ (middle ++ content.drop back) ∧
    back ≤ front + middle.length + drift

namespace Kept

variable {content text : Text} {front back drift : Nat}

theorem refl (content : Text) (place : Nat) : Kept content place place 0 content :=
  ⟨[], (List.take_append_drop place content).symm, Nat.le_add_right _ _⟩

/-- Less may be said to be kept at the end. -/
theorem widen (kept : Kept content front back drift text) {further : Nat}
    (ordered : back ≤ further) (within : further ≤ content.length) :
    Kept content front further drift text := by
  rcases kept with ⟨middle, rfl, moved⟩
  have split : content.drop back =
      (content.drop back).take (further - back) ++ content.drop further := by
    rw [show content.drop further = (content.drop back).drop (further - back) by
      rw [List.drop_drop, Nat.add_sub_cancel' ordered], List.take_append_drop]
  refine ⟨middle ++ (content.drop back).take (further - back), ?_, ?_⟩
  · rw [List.append_assoc, ← split]
  · rw [List.length_append, List.length_take_of_le (by rw [List.length_drop]; omega)]
    omega

/-- What moves to the left is what the text is shorter by. -/
theorem length_le (kept : Kept content front back drift text) (short : front ≤ content.length)
    (within : back ≤ content.length) : content.length ≤ text.length + drift := by
  rcases kept with ⟨middle, rfl, moved⟩
  rw [List.length_append, List.length_append, List.length_drop, List.length_take_of_le short]
  omega

/-- A stretch between what is kept gives way to another text. -/
theorem splice (kept : Kept content front back drift text) (short : front ≤ content.length)
    {place length : Nat} (new : Text) (behind : front ≤ place)
    (upTo : place + length + (content.length - back) ≤ text.length) :
    Kept content front back (drift + (length - new.length)) (splice text place length new) := by
  rcases kept with ⟨middle, rfl, moved⟩
  rcases Nat.exists_eq_add_of_le behind with ⟨step, rfl⟩
  have frontLength : (content.take front).length = front := List.length_take_of_le short
  rw [List.length_append, List.length_append, List.length_drop, frontLength] at upTo
  have ahead : (content.take front ++ (middle ++ content.drop back)).take (front + step) =
      content.take front ++ middle.take step := by
    rw [List.take_append, frontLength, Nat.add_sub_cancel_left, List.take_of_length_le (by omega),
      List.take_append_of_le_length (by omega)]
  have later : (content.take front ++ (middle ++ content.drop back)).drop (front + step + length) =
      middle.drop (step + length) ++ content.drop back := by
    rw [List.drop_append, frontLength, List.drop_eq_nil_of_le (by omega), List.nil_append,
      Nat.add_assoc, Nat.add_sub_cancel_left, List.drop_append_of_le_length (by omega)]
  refine ⟨middle.take step ++ (new ++ middle.drop (step + length)), ?_, ?_⟩
  · rw [Edit.splice, ahead, later]
    simp only [List.append_assoc]
  · rw [List.length_append, List.length_append, List.length_drop,
      List.length_take_of_le (by omega)]
    omega

end Kept

/-! ## One edit -/

theorem content_stepAt (window : Int) (outcome : Outcome) (edit : Placed) :
    (stepAt window outcome edit).content =
      match edit.site? window outcome.content with
      | some place => splice outcome.content place edit.replacement.oldHref.length
          edit.replacement.newHref
      | none => outcome.content := by
  simp only [stepAt, applyAt?_eq_map_site?, Placed.site?]
  cases site? window outcome.content edit.replacement.oldHref edit.start edit.stop with
  | none => rfl
  | some place => rfl

variable {window : Int} {content : Text} {front back drift : Nat} {outcome : Outcome}
  {edit : Placed}

/-- An edit that is made between what is kept moves the text behind it by what it is shorter. -/
theorem Kept.stepAt (kept : Kept content front back drift outcome.content)
    (short : front ≤ content.length)
    (between : ∀ place ∈ edit.site? window outcome.content, front ≤ place ∧
      place + edit.replacement.oldHref.length + (content.length - back) ≤ outcome.content.length) :
    Kept content front back
      (drift + (edit.replacement.oldHref.length - edit.replacement.newHref.length))
      (stepAt window outcome edit).content := by
  rw [content_stepAt]
  cases made : edit.site? window outcome.content with
  | none =>
      rcases kept with ⟨middle, whole, moved⟩
      exact ⟨middle, whole, by omega⟩
  | some place =>
      have bounds := between place made
      exact kept.splice short _ bounds.1 bounds.2

/-! ## All edits -/

/-- All ranges lie between two places of the text. -/
structure Spanned (content : Text) (lo hi : Nat) (edits : List Placed) : Prop where
  /-- The places are in order. -/
  ordered : lo ≤ hi
  /-- The second place is one of the text. -/
  within : hi ≤ content.length
  /-- No range begins before the first place. -/
  starts : ∀ edit ∈ edits, (lo : Int) ≤ edit.start
  /-- No range ends behind the second. -/
  stops : ∀ edit ∈ edits, edit.stop ≤ (hi : Int)

variable {lo hi : Nat} {edits rest : List Placed}

theorem Spanned.tail (spanned : Spanned content lo hi (edit :: rest)) :
    Spanned content lo hi rest where
  ordered := spanned.ordered
  within := spanned.within
  starts other member := spanned.starts other (List.mem_cons_of_mem edit member)
  stops other member := spanned.stops other (List.mem_cons_of_mem edit member)

/-- Edits are made between what is kept, if that is as far from their ranges as the window is wide
and, at the end, as much further as the edits can shorten the text. -/
theorem Kept.foldl_stepAt {longest : Nat} (spanned : Spanned content lo hi edits)
    (covers : ∀ edit ∈ edits,
      min edit.replacement.oldHref.length edit.replacement.newHref.length ≤ longest)
    (kept : Kept content (lo - window.toNat)
      (min content.length (hi + window.toNat + longest + drift)) drift outcome.content) :
    let moved := drift + shrinkage (edits.map (·.replacement))
    Kept content (lo - window.toNat) (min content.length (hi + window.toNat + longest + moved))
      moved (edits.foldl (Edit.stepAt window) outcome).content := by
  induction edits generalizing outcome drift with
  | nil => exact kept
  | cons edit rest inductionHypothesis =>
      have ordered := spanned.ordered
      have within := spanned.within
      have short : lo - window.toNat ≤ content.length := by omega
      -- What is kept is taken to end further on, by what this edit may shorten the text.
      generalize moves : drift + (edit.replacement.oldHref.length -
        edit.replacement.newHref.length) = moved
      have wider : Kept content (lo - window.toNat)
          (min content.length (hi + window.toNat + longest + moved)) drift outcome.content :=
        kept.widen (by omega) (Nat.min_le_left _ _)
      have shortened := wider.length_le short (Nat.min_le_left _ _)
      have between : ∀ place ∈ edit.site? window outcome.content, lo - window.toNat ≤ place ∧
          place + edit.replacement.oldHref.length + (content.length -
            min content.length (hi + window.toNat + longest + moved)) ≤ outcome.content.length := by
        intro place made
        have bounds := bounds_of_site? made
        have occurs := bounds.1.le_length
        have start := spanned.starts edit List.mem_cons_self
        have stop := spanned.stops edit List.mem_cons_self
        have covered := covers edit List.mem_cons_self
        omega
      have stepped := wider.stepAt short between
      rw [moves] at stepped
      have later := inductionHypothesis spanned.tail
        (fun other member => covers other (List.mem_cons_of_mem edit member)) stepped
      rw [List.map_cons, shrinkage, ← Nat.add_assoc, moves]
      exact later

/-- Each edit that is made replaces a stretch between the first characters of a text and the last,
so many at each end, as the text stands when its turn comes. -/
def MadeInside (window : Int) (front behind : Nat) : List Placed → Text → Prop
  | [], _ => True
  | edit :: later, text =>
    (∀ place ∈ edit.site? window text, front ≤ place ∧
      place + edit.replacement.oldHref.length + behind ≤ text.length) ∧
    MadeInside window front behind later (stepAt window (Outcome.start text) edit).content

instance decidableMadeInside (window : Int) (front behind : Nat) :
    (edits : List Placed) → (text : Text) → Decidable (MadeInside window front behind edits text)
  | [], _ => isTrue trivial
  | edit :: later, text =>
    @instDecidableAnd _ _ (inferInstanceAs (Decidable (∀ place ∈ edit.site? window text, _)))
      (decidableMadeInside window front behind later _)

theorem Kept.foldl_of_madeInside {edits : List Placed} (short : front ≤ content.length)
    (inside : MadeInside window front (content.length - back) edits outcome.content)
    (kept : Kept content front back drift outcome.content) :
    ∃ drift, Kept content front back drift (edits.foldl (Edit.stepAt window) outcome).content := by
  induction edits generalizing outcome drift with
  | nil => exact ⟨drift, kept⟩
  | cons edit rest inductionHypothesis =>
      have same : (Edit.stepAt window (Outcome.start outcome.content) edit).content =
          (Edit.stepAt window outcome edit).content := by
        rw [content_stepAt, content_stepAt]
        rfl
      refine inductionHypothesis ?_ (kept.stepAt short inside.1)
      rw [← same]
      exact inside.2

/-! ## Lists of replacements -/

theorem Placed.ends_of? {replacement : Replacement} {placed : Placed}
    (found : Placed.of? replacement = some placed) :
    replacement.start? = some placed.start ∧ replacement.stop? = some placed.stop := by
  rw [Placed.of?, Option.map_eq_some_iff] at found
  rcases found with ⟨range, known, rfl⟩
  rw [Replacement.range?] at known
  split at known
  · next start stop starts stops =>
      cases known
      exact ⟨starts, stops⟩
  · cases known

theorem exists_of_mem_descending {replacements : List Replacement}
    (member : edit ∈ descending (replacements.filterMap Placed.of?)) :
    ∃ replacement ∈ replacements, Placed.of? replacement = some edit :=
  List.mem_filterMap.mp ((descending_perm _).mem_iff.mp member)

theorem spanned_of_fits {replacements : List Replacement}
    (fits : ∀ replacement ∈ replacements, Fits content replacement)
    (first : IsLeast {start : Nat | ∃ replacement ∈ replacements,
      replacement.start? = some (start : Int)} lo)
    (last : IsGreatest {stop : Nat | ∃ replacement ∈ replacements,
      replacement.stop? = some (stop : Int)} hi) :
    Spanned content lo hi (descending (replacements.filterMap Placed.of?)) := by
  have bounded : ∀ replacement ∈ replacements, ∀ edit, Placed.of? replacement = some edit →
      (lo : Int) ≤ edit.start ∧ edit.stop ≤ (hi : Int) ∧ edit.Fits content := by
    intro replacement listed edit found
    rcases fits replacement listed with ⟨placed, same, fit⟩
    cases Option.some.inj (same.symm.trans found)
    have ends := Placed.ends_of? found
    have nonneg := fit.nonneg
    have nonempty := fit.nonempty
    have least := first.2 ⟨replacement, listed, ends.1.trans
      (congrArg some (Int.toNat_of_nonneg nonneg).symm)⟩
    have greatest := last.2 ⟨replacement, listed, ends.2.trans
      (congrArg some (Int.toNat_of_nonneg (by omega)).symm)⟩
    exact ⟨by omega, by omega, fit⟩
  obtain ⟨ordered, within⟩ : lo ≤ hi ∧ hi ≤ content.length := by
    rcases last.1 with ⟨replacement, listed, ends⟩
    rcases fits replacement listed with ⟨edit, found, fit⟩
    have bounds := bounded replacement listed edit found
    have same := Option.some.inj (ends.symm.trans (Placed.ends_of? found).2)
    have nonempty := fit.nonempty
    have within := fit.within
    omega
  refine ⟨ordered, within, fun edit member => ?_, fun edit member => ?_⟩
  · rcases exists_of_mem_descending member with ⟨replacement, listed, found⟩
    exact (bounded replacement listed edit found).1
  · rcases exists_of_mem_descending member with ⟨replacement, listed, found⟩
    exact (bounded replacement listed edit found).2.1

private theorem drop_min_length (text : Text) (place : Nat) :
    text.drop (min text.length place) = text.drop place := by
  rcases Nat.le_total text.length place with beyond | within
  · rw [Nat.min_eq_left beyond, List.drop_length, List.drop_eq_nil_of_le beyond]
  · rw [Nat.min_eq_right within]

/-- Of edits that all fit, overlapping or not, the text before the first range and behind the last
is kept up to the window, and at the end up to what the edits shorten the text by besides.  It is
kept altogether if each edit that is made replaces a stretch between the two. -/
theorem apply_framed (window : Int) (content : Text) (replacements : List Replacement)
    (fits : ∀ replacement ∈ replacements, Fits content replacement) {lo hi : Nat}
    (first : IsLeast {start : Nat | ∃ replacement ∈ replacements,
      replacement.start? = some (start : Int)} lo)
    (last : IsGreatest {stop : Nat | ∃ replacement ∈ replacements,
      replacement.stop? = some (stop : Int)} hi) :
    (∀ longest, (∀ replacement ∈ replacements,
        min replacement.oldHref.length replacement.newHref.length ≤ longest) →
      ∃ middle, (apply window content replacements).content =
        content.take (lo - window.toNat) ++ (middle ++
          content.drop (hi + window.toNat + longest + shrinkage replacements))) ∧
    (MadeInside window lo (content.length - hi) (descending (replacements.filterMap Placed.of?))
        content →
      ∃ middle, (apply window content replacements).content =
        content.take lo ++ (middle ++ content.drop hi)) := by
  obtain ⟨placedBack, _, noneUnplaced⟩ := filterMap_of?_of_fits content replacements fits
  have spanned := spanned_of_fits fits first last
  have ordered := spanned.ordered
  have within := spanned.within
  have shortened : shrinkage ((descending (replacements.filterMap Placed.of?)).map
      (·.replacement)) = shrinkage replacements := by
    rw [shrinkage_eq_of_perm ((descending_perm _).map _), placedBack]
  rw [apply, noneUnplaced, List.foldl_nil]
  refine ⟨fun longest covers => ?_, fun inside => ?_⟩
  · have begun : Kept content (lo - window.toNat)
        (min content.length (hi + window.toNat + longest + 0)) 0 (Outcome.start content).content :=
      (Kept.refl content (lo - window.toNat)).widen (by omega) (Nat.min_le_left _ _)
    have covered : ∀ edit ∈ descending (replacements.filterMap Placed.of?),
        min edit.replacement.oldHref.length edit.replacement.newHref.length ≤ longest := by
      intro edit member
      rcases exists_of_mem_descending member with ⟨replacement, listed, found⟩
      rw [Placed.replacement_of? found]
      exact covers replacement listed
    rcases begun.foldl_stepAt spanned covered with ⟨middle, whole, _⟩
    rw [shortened, Nat.zero_add, drop_min_length] at whole
    exact ⟨middle, whole⟩
  · have begun : Kept content lo hi 0 (Outcome.start content).content :=
      (Kept.refl content lo).widen ordered within
    rcases begun.foldl_of_madeInside (by omega) inside with ⟨drift, middle, whole, _⟩
    exact ⟨middle, whole⟩

/-- Of two ranges, one within the other, the inner one is made and the outer one is no longer
found: nothing outside has changed. -/
theorem apply_framed_nested :
    let outer : Replacement := { line := 1, oldHref := "docs/a.md", newHref := "b.md"
                                 start? := some 4, stop? := some 13, kind? := none }
    let inner : Replacement := { line := 1, oldHref := "a.md", newHref := "../c.md"
                                 start? := some 9, stop? := some 13, kind? := none }
    let content : Text := "see docs/a.md too"
    ((∀ replacement ∈ [outer, inner], Fits content replacement) ∧
        IsLeast {start : Nat | ∃ replacement ∈ [outer, inner],
          replacement.start? = some (start : Int)} 4 ∧
        IsGreatest {stop : Nat | ∃ replacement ∈ [outer, inner],
          replacement.stop? = some (stop : Int)} 13) ∧
      MadeInside 64 4 4 (descending ([outer, inner].filterMap Placed.of?)) content ∧
      ∃ middle, (apply 64 content [outer, inner]).content =
        content.take 4 ++ (middle ++ content.drop 13) := by
  intro outer inner content
  have fits : ∀ replacement ∈ [outer, inner], Fits content replacement := by
    intro replacement member
    rcases List.mem_pair.mp member with rfl | rfl
    · exact ⟨_, rfl, by decide +kernel, by decide +kernel, by decide +kernel, by decide +kernel⟩
    · exact ⟨_, rfl, by decide +kernel, by decide +kernel, by decide +kernel, by decide +kernel⟩
  have first : IsLeast {start : Nat | ∃ replacement ∈ [outer, inner],
      replacement.start? = some (start : Int)} 4 := by
    refine ⟨⟨outer, by simp, rfl⟩, ?_⟩
    rintro start ⟨replacement, member, starts⟩
    rcases List.mem_pair.mp member with rfl | rfl
    · have := Option.some.inj starts
      omega
    · have := Option.some.inj starts
      omega
  have last : IsGreatest {stop : Nat | ∃ replacement ∈ [outer, inner],
      replacement.stop? = some (stop : Int)} 13 := by
    refine ⟨⟨outer, by simp, rfl⟩, ?_⟩
    rintro stop ⟨replacement, member, stops⟩
    rcases List.mem_pair.mp member with rfl | rfl
    · have := Option.some.inj stops
      omega
    · have := Option.some.inj stops
      omega
  have inside : MadeInside 64 4 4 (descending ([outer, inner].filterMap Placed.of?)) content := by
    decide +kernel
  exact ⟨⟨fits, first, last⟩, inside,
    (apply_framed 64 content [outer, inner] fits first last).2 inside⟩

/-- An edit that is listed twice is made once in its range and once in the text before it. -/
theorem apply_framed_repeated :
    let edit : Replacement := { line := 1, oldHref := "a.md", newHref := "docs/a.md"
                                start? := some 5, stop? := some 9, kind? := none }
    let content : Text := "a.md a.md"
    (∀ replacement ∈ [edit, edit], Fits content replacement) ∧
      IsLeast {start : Nat | ∃ replacement ∈ [edit, edit],
        replacement.start? = some (start : Int)} 5 ∧
      IsGreatest {stop : Nat | ∃ replacement ∈ [edit, edit],
        replacement.stop? = some (stop : Int)} 9 ∧
      ¬ ∃ middle, (apply defaultWindow content [edit, edit]).content =
        content.take 5 ++ (middle ++ content.drop 9) := by
  intro edit content
  have made : (apply defaultWindow content [edit, edit]).content =
      ("docs/a.md docs/a.md" : Text) := by
    decide +kernel
  have only : ∀ replacement ∈ [edit, edit], replacement = edit := by simp
  refine ⟨fun replacement member => ?_, ⟨⟨edit, List.mem_cons_self, rfl⟩, ?_⟩,
    ⟨⟨edit, List.mem_cons_self, rfl⟩, ?_⟩, ?_⟩
  · rw [only replacement member]
    exact ⟨_, rfl, by decide +kernel, by decide +kernel, by decide +kernel, by decide +kernel⟩
  · rintro start ⟨replacement, member, starts⟩
    rw [only replacement member] at starts
    have := Option.some.inj starts
    omega
  · rintro stop ⟨replacement, member, stops⟩
    rw [only replacement member] at stops
    have := Option.some.inj stops
    omega
  · rintro ⟨middle, kept⟩
    rw [made] at kept
    exact absurd (List.cons.inj kept).1 (by decide)

end Edit
end Crosslink

import Crosslink.Proofs.Edit.Order
import Crosslink.Proofs.Edit.Search
import Crosslink.Proofs.Edit.Tally

namespace Crosslink
namespace Edit

/-!
What a list of edits by position amounts to when they are right and share no character.
The meaning is given without any order of work: each character of the text is looked at
once, a range begins with its new href, and only characters outside all ranges are kept.
Making the edits one after the other, the last position first, comes to the same text.
-/

namespace Placed

def beginsAt (position : Nat) (placed : Placed) : Bool :=
  placed.start = position

/-- A position lies within the range of the edit. -/
def covers (position : Nat) (placed : Placed) : Bool :=
  placed.start ≤ position && (position : Int) < placed.stop

/-- The edit names a range of the text that spells its old href. -/
structure Fits (text : Text) (placed : Placed) : Prop where
  /-- The range does not begin before the text. -/
  nonneg : 0 ≤ placed.start
  /-- The range holds a character. -/
  nonempty : placed.start < placed.stop
  /-- The range does not end behind the text. -/
  within : placed.stop ≤ text.length
  /-- The range spells the old href. -/
  spells : text.slice placed.start.toNat placed.stop.toNat = placed.replacement.oldHref

/-- The range of the edit begins where a text ends, and it has the length of the old href, which
holds a character. -/
structure StandsBehind (before : Text) (placed : Placed) : Prop where
  /-- The range begins where the text ends. -/
  start : placed.start = before.length
  /-- The range is as long as the old href. -/
  stop : placed.stop = (before.length + placed.replacement.oldHref.length : Nat)
  /-- The old href holds a character. -/
  nonempty : placed.replacement.oldHref ≠ []

/-- Two edits share no character. -/
def Apart (first second : Placed) : Prop :=
  first.stop ≤ second.start ∨ second.stop ≤ first.start

theorem Apart.symm {first second : Placed} (apart : Apart first second) : Apart second first :=
  Or.symm apart

end Placed

/-- What becomes of the character at a position when all edits are made at once. -/
def rewritten (edits : List Placed) (position : Nat) (c : Char) : Text :=
  (edits.filter (Placed.beginsAt position)).flatMap (·.replacement.newHref)
    ++ if edits.any (Placed.covers position) then [] else [c]

/-- What becomes of a stretch of text that begins at a position. -/
def rewriteFrom (edits : List Placed) : Nat → Text → Text
  | _, [] => []
  | position, c :: rest => rewritten edits position c ++ rewriteFrom edits (position + 1) rest

/-- The text with every range replaced by its new href at once. -/
def simultaneous (edits : List Placed) (text : Text) : Text :=
  rewriteFrom edits 0 text

/-! ## The simultaneous text, stretch by stretch -/

theorem rewriteFrom_append (edits : List Placed) (position : Nat) (first second : Text) :
    rewriteFrom edits position (first ++ second) =
      rewriteFrom edits position first
        ++ rewriteFrom edits (position + first.length) second := by
  induction first generalizing position with
  | nil => rfl
  | cons c rest inductionHypothesis =>
      have next : position + 1 + rest.length = position + (c :: rest).length := by
        rw [List.length_cons, Nat.add_right_comm, Nat.add_assoc]
      rw [List.cons_append, rewriteFrom, inductionHypothesis, next, rewriteFrom, List.append_assoc]

/-- Only what the edits say about the positions of a stretch matters to it. -/
theorem rewriteFrom_congr {first second : List Placed} (position : Nat) (text : Text)
    (agree : ∀ place, position ≤ place → place < position + text.length →
      ∀ c, rewritten first place c = rewritten second place c) :
    rewriteFrom first position text = rewriteFrom second position text := by
  induction text generalizing position with
  | nil => rfl
  | cons c rest inductionHypothesis =>
      rw [List.length_cons] at agree
      have here := agree position (Nat.le_refl _) (by omega) c
      have later := inductionHypothesis (position + 1)
        (fun place above below => agree place (by omega) (by omega))
      rw [rewriteFrom, rewriteFrom, here, later]

@[simp] theorem rewritten_nil (position : Nat) (c : Char) : rewritten [] position c = [c] := rfl

@[simp] theorem rewriteFrom_nil (position : Nat) (text : Text) : rewriteFrom [] position text = text := by
  induction text generalizing position with
  | nil => rfl
  | cons c rest inductionHypothesis =>
      rw [rewriteFrom, rewritten_nil, inductionHypothesis, List.singleton_append]

/-- A position that an edit neither begins at nor covers is none of its business. -/
theorem rewritten_cons_of_outside (edit : Placed) (edits : List Placed) (position : Nat) (c : Char)
    (notBegins : edit.beginsAt position = false) (notCovers : edit.covers position = false) :
    rewritten (edit :: edits) position c = rewritten edits position c := by
  rw [rewritten, rewritten, List.filter_cons_of_neg (by rw [notBegins]; exact Bool.false_ne_true),
    List.any_cons, notCovers, Bool.false_or]

private theorem outside_before {edit : Placed} {position : Nat} (before : position < edit.start) :
    edit.beginsAt position = false ∧ edit.covers position = false := by
  simp only [Placed.beginsAt, Placed.covers, decide_eq_false_iff_not, Bool.and_eq_false_iff]
  omega

private theorem outside_behind {edit : Placed} {position : Nat} (nonempty : edit.start < edit.stop)
    (behind : edit.stop ≤ position) :
    edit.beginsAt position = false ∧ edit.covers position = false := by
  simp only [Placed.beginsAt, Placed.covers, decide_eq_false_iff_not, Bool.and_eq_false_iff]
  omega

theorem rewriteFrom_behind (edits : List Placed) (position : Nat) (text : Text)
    (nonempty : ∀ edit ∈ edits, edit.start < edit.stop)
    (behind : ∀ edit ∈ edits, edit.stop ≤ position) :
    rewriteFrom edits position text = text := by
  induction edits with
  | nil => exact rewriteFrom_nil position text
  | cons edit rest inductionHypothesis =>
      have dropped : rewriteFrom (edit :: rest) position text = rewriteFrom rest position text := by
        apply rewriteFrom_congr
        intro place above _ c
        have outside : edit.beginsAt place = false ∧ edit.covers place = false :=
          outside_behind (nonempty edit List.mem_cons_self)
            (Int.le_trans (behind edit List.mem_cons_self) (Int.ofNat_le.mpr above))
        exact rewritten_cons_of_outside edit rest place c outside.1 outside.2
      rw [dropped]
      exact inductionHypothesis (fun other member => nonempty other (List.mem_cons_of_mem _ member))
        (fun other member => behind other (List.mem_cons_of_mem _ member))

/-- A stretch of which no character leaves anything behind is gone. -/
theorem rewriteFrom_eq_nil {edits : List Placed} (position : Nat) (text : Text)
    (gone : ∀ place, position ≤ place → place < position + text.length →
      ∀ c, rewritten edits place c = []) :
    rewriteFrom edits position text = [] := by
  induction text generalizing position with
  | nil => rfl
  | cons c rest inductionHypothesis =>
      rw [List.length_cons] at gone
      have here := gone position (Nat.le_refl _) (by omega) c
      have later := inductionHypothesis (position + 1)
        (fun place above below => gone place (by omega) (by omega))
      rw [rewriteFrom, here, later, List.nil_append]

/-- Where an edit covers a position at which no other edit begins, the new href is written if the
edit begins there, and nothing if it does not. -/
private theorem rewritten_cons_of_covers {edit : Placed} {edits : List Placed} {position : Nat}
    (c : Char) (covers : edit.covers position = true)
    (noneBegins : edits.filter (Placed.beginsAt position) = []) :
    rewritten (edit :: edits) position c =
      if edit.beginsAt position = true then edit.replacement.newHref else [] := by
  rw [rewritten, List.any_cons, covers, Bool.true_or, if_pos rfl, List.append_nil]
  by_cases begins : edit.beginsAt position = true
  · rw [if_pos begins, List.filter_cons_of_pos begins, noneBegins, List.flatMap_singleton]
  · rw [if_neg begins, List.filter_cons_of_neg begins, noneBegins, List.flatMap_nil]

private theorem rewriteFrom_range {edit : Placed} {edits : List Placed} {before : Text}
    (stands : edit.StandsBehind before) (earlier : ∀ other ∈ edits, other.start < before.length) :
    rewriteFrom (edit :: edits) before.length edit.replacement.oldHref =
      edit.replacement.newHref := by
  have start := stands.start
  have stop := stands.stop
  have inside : ∀ place, before.length ≤ place →
      place < before.length + edit.replacement.oldHref.length → ∀ c,
      rewritten (edit :: edits) place c =
        if edit.beginsAt place = true then edit.replacement.newHref else [] := by
    intro place above below c
    apply rewritten_cons_of_covers c
    · exact Bool.and_eq_true_iff.mpr ⟨decide_eq_true (by omega), decide_eq_true (by omega)⟩
    · refine List.filter_eq_nil_iff.mpr fun other member begins => ?_
      have begun : other.start = place := of_decide_eq_true begins
      have := earlier other member
      omega
  cases spelled : edit.replacement.oldHref with
  | nil => exact absurd spelled stands.nonempty
  | cons c rest =>
      rw [spelled, List.length_cons] at inside
      have begins : edit.beginsAt before.length = true := decide_eq_true start
      have behind : rewriteFrom (edit :: edits) (before.length + 1) rest = [] := by
        refine rewriteFrom_eq_nil _ _ fun place above below d => ?_
        have notBegins : ¬ edit.beginsAt place = true := by
          intro begins
          have begun : edit.start = place := of_decide_eq_true begins
          omega
        rw [inside place (by omega) (by omega) d, if_neg notBegins]
      rw [rewriteFrom, inside before.length (Nat.le_refl _) (by omega) c, if_pos begins, behind,
        List.append_nil]

/-- The last of the edits can be made by itself: the others see the text before its range
only. -/
theorem simultaneous_cons {edit : Placed} {edits : List Placed} {before : Text} (behind : Text)
    (stands : edit.StandsBehind before) (ordered : ∀ other ∈ edits, other.start < other.stop)
    (earlier : ∀ other ∈ edits, other.stop ≤ edit.start) :
    simultaneous (edit :: edits) (before ++ (edit.replacement.oldHref ++ behind)) =
      simultaneous edits before ++ (edit.replacement.newHref ++ behind) := by
  have positive := List.length_pos_iff.mpr stands.nonempty
  have start := stands.start
  have stop := stands.stop
  rw [simultaneous, rewriteFrom_append, rewriteFrom_append, Nat.zero_add]
  have atBefore : rewriteFrom (edit :: edits) 0 before = rewriteFrom edits 0 before := by
    apply rewriteFrom_congr
    intro place _ below c
    have outside : edit.beginsAt place = false ∧ edit.covers place = false :=
      outside_before (by omega)
    exact rewritten_cons_of_outside edit edits place c outside.1 outside.2
  have atRange := rewriteFrom_range stands fun other member => by
    have := ordered other member
    have := earlier other member
    omega
  have atBehind : rewriteFrom (edit :: edits)
      (before.length + edit.replacement.oldHref.length) behind = behind := by
    apply rewriteFrom_behind
    · intro other member
      rcases List.mem_cons.mp member with same | later
      · rw [same]
        omega
      · exact ordered other later
    · intro other member
      rcases List.mem_cons.mp member with same | later
      · rw [same]
        omega
      · have := earlier other later
        omega
  rw [atBefore, atRange, atBehind, simultaneous]

/-- It does not matter in which order edits are listed that share no character. -/
theorem simultaneous_eq_of_perm {first second : List Placed} (text : Text)
    (permuted : first.Perm second)
    (different : first.Pairwise fun one other => one.start ≠ other.start) :
    simultaneous first text = simultaneous second text := by
  apply rewriteFrom_congr
  intro place _ _ c
  have sameCover : first.any (Placed.covers place) = second.any (Placed.covers place) := by
    apply Bool.eq_iff_iff.mpr
    simp only [List.any_eq_true, permuted.mem_iff]
  have sameBegin : first.filter (Placed.beginsAt place) =
      second.filter (Placed.beginsAt place) := by
    refine List.Perm.eq_of_pairwise ?_ (different.filter _) ?_ (permuted.filter _)
    · intro one other inFirst inSecond apart
      have begins := of_decide_eq_true (List.mem_filter.mp inFirst).2
      have otherBegins := of_decide_eq_true (List.mem_filter.mp inSecond).2
      exact absurd (begins.trans otherBegins.symm) apart
    · exact ((permuted.pairwise_iff Ne.symm).mp different).filter _
  rw [rewritten, rewritten, sameCover, sameBegin]

/-! ## Making the edits one after the other -/

private theorem take_eq_append_slice (text : Text) (start stop bound : Nat) (ordered : start ≤ stop)
    (within : stop ≤ bound) :
    text.take bound =
      text.take start ++ (text.slice start stop ++ (text.take bound).drop stop) := by
  have front : (text.take stop).take start = text.take start := by
    rw [List.take_take, Nat.min_eq_left ordered]
  have middle : (text.take bound).take stop = text.take stop := by
    rw [List.take_take, Nat.min_eq_left within]
  rw [← List.append_assoc, Text.slice, ← front, List.take_append_drop, ← middle,
    List.take_append_drop]

/-- An edit that fits cuts the text in front of a bound in three: what stands before its range,
the old href, and what stands behind. -/
theorem Placed.Fits.exists_cut {text : Text} {edit : Placed} (fits : edit.Fits text) {bound : Nat}
    (bounded : edit.stop ≤ bound) :
    ∃ start after, edit.StandsBehind (text.take start) ∧ edit.start = (start : Nat) ∧
      text.take bound = text.take start ++ (edit.replacement.oldHref ++ after) := by
  have range : IsRange text edit.start edit.stop := ⟨fits.nonneg, fits.nonempty, fits.within⟩
  have length := length_slice range
  rw [fits.spells] at length
  have nonempty := fits.nonempty
  have within := fits.within
  rcases Int.eq_ofNat_of_zero_le fits.nonneg with ⟨start, startEq⟩
  rcases Int.eq_ofNat_of_zero_le (show 0 ≤ edit.stop by omega) with ⟨stop, stopEq⟩
  have startLength : (text.take start).length = start := List.length_take_of_le (by omega)
  have spells := fits.spells
  rw [startEq, stopEq, Int.toNat_natCast, Int.toNat_natCast] at spells
  refine ⟨start, (text.take bound).drop stop, ⟨?_, ?_, ?_⟩, startEq, ?_⟩
  · rw [startLength, startEq]
  · rw [startLength]
    omega
  · exact List.length_pos_iff.mp (by omega)
  · rw [← spells]
    exact take_eq_append_slice text start stop bound (by omega) (by omega)

theorem Placed.Fits.oldHref_ne_nil {text : Text} {edit : Placed} (fits : edit.Fits text) :
    edit.replacement.oldHref ≠ [] := by
  rcases fits.exists_cut fits.within with ⟨_, _, stands, _⟩
  exact stands.nonempty

theorem stepAt_of_standsBehind (window : Int) {outcome : Outcome} {placed : Placed}
    {before : Text} (behind : Text) (stands : placed.StandsBehind before)
    (content : outcome.content = before ++ (placed.replacement.oldHref ++ behind)) :
    stepAt window outcome placed =
      outcome.count (before ++ (placed.replacement.newHref ++ behind)) placed.replacement.kind := by
  have positive := List.length_pos_iff.mpr stands.nonempty
  have start := stands.start
  have stop := stands.stop
  have length : outcome.content.length =
      before.length + (placed.replacement.oldHref.length + behind.length) := by
    rw [content, List.length_append, List.length_append]
  have range : IsRange outcome.content placed.start placed.stop :=
    ⟨by omega, by omega, by omega⟩
  have startNat : placed.start.toNat = before.length := by omega
  have stopNat : placed.stop.toNat = before.length + placed.replacement.oldHref.length := by omega
  have spells : outcome.content.slice placed.start.toNat placed.stop.toNat =
      placed.replacement.oldHref := by
    rw [content, startNat, stopNat, Text.slice, ← List.append_assoc, ← List.length_append,
      List.take_left, List.drop_left]
  have made : applyAt? window outcome.content placed.replacement.oldHref
      placed.replacement.newHref placed.start placed.stop =
        some (before ++ (placed.replacement.newHref ++ behind)) := by
    have ahead : outcome.content.take before.length = before := by rw [content, List.take_left]
    have rest : outcome.content.drop (before.length + placed.replacement.oldHref.length) = behind := by
      rw [content, ← List.append_assoc, ← List.length_append, List.drop_left]
    rw [applyAt?_eq_map_site?, site?_of_spells range spells, Option.map_some, splice, startNat, ahead,
      rest, List.append_assoc]
  simp only [stepAt, made]

/-- The edits still to be made see their own part of the text untouched: all that has
changed lies behind it. -/
theorem foldl_stepAt (window : Int) (text : Text) (edits : List Placed) (outcome : Outcome)
    (bound : Nat) (behind : Text) (fits : ∀ edit ∈ edits, edit.Fits text)
    (descends : edits.Pairwise fun later earlier => earlier.stop ≤ later.start)
    (bounded : ∀ edit ∈ edits, edit.stop ≤ bound)
    (content : outcome.content = text.take bound ++ behind) :
    edits.foldl (stepAt window) outcome =
      { content := simultaneous edits (text.take bound) ++ behind
        applied := outcome.applied + edits.length
        tally := (edits.map (·.replacement.kind)).foldl (fun tally kind => tally.add kind 1)
          outcome.tally
        missed := outcome.missed } := by
  -- The bound falls to the start of each edit that is made; what it leaves out is final.
  induction edits generalizing outcome bound behind with
  | nil =>
      rw [simultaneous, rewriteFrom_nil, ← content]
      rfl
  | cons edit rest inductionHypothesis =>
      have parts := List.pairwise_cons.mp descends
      rcases (fits edit List.mem_cons_self).exists_cut (bounded edit List.mem_cons_self) with
        ⟨start, after, stands, startEq, cut⟩
      have step := stepAt_of_standsBehind window (after ++ behind) stands
        (by rw [content, cut]; simp only [List.append_assoc])
      have restFits : ∀ other ∈ rest, other.Fits text :=
        fun other member => fits other (List.mem_cons_of_mem _ member)
      have restBounded : ∀ other ∈ rest, other.stop ≤ start :=
        fun other member => startEq ▸ parts.1 other member
      have peeled := simultaneous_cons after stands
        (fun other member => (restFits other member).nonempty) parts.1
      rw [List.foldl_cons, step, inductionHypothesis _ start _ restFits parts.2 restBounded rfl,
        cut, peeled]
      simp only [Outcome.count, List.append_assoc, List.length_cons, List.map_cons,
        List.foldl_cons, Nat.add_assoc, Nat.add_comm 1]

/-! ## Lists of replacements -/

/-- The replacement knows its range, and the range spells its old href. -/
def Fits (content : Text) (replacement : Replacement) : Prop :=
  ∃ placed, Placed.of? replacement = some placed ∧ placed.Fits content

/-- Two replacements with ranges share no character. -/
def Apart (first second : Replacement) : Prop :=
  ∀ one other, Placed.of? first = some one → Placed.of? second = some other → one.Apart other

theorem Placed.replacement_of? {replacement : Replacement} {placed : Placed}
    (found : Placed.of? replacement = some placed) : placed.replacement = replacement := by
  rw [Placed.of?, Option.map_eq_some_iff] at found
  rcases found with ⟨range, _, made⟩
  rw [← made]

/-- Replacements that fit are all made by position, and each of them once. -/
theorem filterMap_of?_of_fits (content : Text) (replacements : List Replacement)
    (fits : ∀ replacement ∈ replacements, Fits content replacement) :
    (replacements.filterMap Placed.of?).map (·.replacement) = replacements ∧
      (∀ placed ∈ replacements.filterMap Placed.of?, placed.Fits content) ∧
      (replacements.filter fun replacement => replacement.range?.isNone) = [] := by
  induction replacements with
  | nil => exact ⟨rfl, fun _ member => absurd member List.not_mem_nil, rfl⟩
  | cons first rest inductionHypothesis =>
      rcases fits first List.mem_cons_self with ⟨placed, found, fit⟩
      have later := inductionHypothesis
        (fun other member => fits other (List.mem_cons_of_mem _ member))
      have ranged : first.range?.isNone = false := by
        rw [Placed.of?, Option.map_eq_some_iff] at found
        rcases found with ⟨range, known, _⟩
        rw [known]
        rfl
      refine ⟨?_, ?_, ?_⟩
      · rw [List.filterMap_cons_some found, List.map_cons, later.1,
          Placed.replacement_of? found]
      · rw [List.filterMap_cons_some found]
        intro other member
        rcases List.mem_cons.mp member with same | inRest
        · rw [same]
          exact fit
        · exact later.2.1 other inRest
      · rw [List.filter_cons_of_neg (by rw [ranged]; exact Bool.false_ne_true)]
        exact later.2.2

private theorem pairwise_filterMap_apart {replacements : List Replacement}
    (apart : replacements.Pairwise Apart) :
    (replacements.filterMap Placed.of?).Pairwise Placed.Apart := by
  refine List.pairwise_filterMap.mpr (apart.imp ?_)
  intro first second separate one oneFound other otherFound
  exact separate one other oneFound otherFound

/-- Edits that share no character begin at different positions. -/
theorem pairwise_start_ne {content : Text} {edits : List Placed}
    (fits : ∀ edit ∈ edits, edit.Fits content) (apart : edits.Pairwise Placed.Apart) :
    edits.Pairwise fun one other => one.start ≠ other.start := by
  refine apart.imp_of_mem ?_
  intro one other inEdits otherInEdits separate same
  have := (fits one inEdits).nonempty
  have := (fits other otherInEdits).nonempty
  rcases separate with before | behind <;> omega

theorem descending_stop_le {content : Text} {edits : List Placed}
    (fits : ∀ edit ∈ edits, edit.Fits content) (apart : edits.Pairwise Placed.Apart) :
    (descending edits).Pairwise fun later earlier => earlier.stop ≤ later.start := by
  have sorted := descending_pairwise edits
  have separate := ((descending_perm edits).pairwise_iff Placed.Apart.symm).mpr apart
  refine (sorted.and separate).imp_of_mem ?_
  intro later earlier inEdits _ both
  have := (fits later ((descending_perm edits).mem_iff.mp inEdits)).nonempty
  rcases both.2 with before | behind
  · have := both.1
    omega
  · exact behind

/-- The whole outcome of edits that fit and share no character. -/
theorem apply_of_fits (window : Int) (content : Text) (replacements : List Replacement)
    (fits : ∀ replacement ∈ replacements, Fits content replacement)
    (apart : replacements.Pairwise Apart) :
    apply window content replacements =
      { content := simultaneous (replacements.filterMap Placed.of?) content
        applied := replacements.length
        tally := ((descending (replacements.filterMap Placed.of?)).map
          (·.replacement.kind)).foldl (fun tally kind => tally.add kind 1) []
        missed := [] } := by
  obtain ⟨placedBack, placedFits, noneUnplaced⟩ :=
    filterMap_of?_of_fits content replacements fits
  have separate := pairwise_filterMap_apart apart
  rw [apply, noneUnplaced, List.foldl_nil]
  generalize replacements.filterMap Placed.of? = edits at *
  have permuted := descending_perm edits
  have sortedFits : ∀ edit ∈ descending edits, edit.Fits content :=
    fun edit member => placedFits edit (permuted.mem_iff.mp member)
  have run := foldl_stepAt window content (descending edits) (Outcome.start content)
    content.length [] sortedFits (descending_stop_le placedFits separate)
    (fun edit member => (sortedFits edit member).within)
    (by rw [List.take_length, List.append_nil]; rfl)
  have sameText := simultaneous_eq_of_perm content permuted.symm
    (pairwise_start_ne placedFits separate)
  have sameLength : (descending edits).length = replacements.length := by
    rw [permuted.length_eq, ← placedBack, List.length_map]
  rw [List.take_length, List.append_nil, ← sameText, sameLength] at run
  rw [run]
  simp only [Outcome.start, Nat.zero_add]

/-- Edits that fit and share no character are all made, exactly where they say: the text
is the simultaneous one, every edit counts towards its kind, and the order in which the
edits were listed plays no part. -/
theorem apply_exact (window : Int) (content : Text) (replacements : List Replacement)
    (fits : ∀ replacement ∈ replacements, Fits content replacement)
    (apart : replacements.Pairwise Apart) :
    (apply window content replacements).content =
        simultaneous (replacements.filterMap Placed.of?) content ∧
      (apply window content replacements).applied = replacements.length ∧
      (∀ kind, (apply window content replacements).tally.count kind =
        replacements.countP fun replacement => replacement.kind = kind) ∧
      (apply window content replacements).missed = [] ∧
      ∀ permuted : List Replacement, permuted.Perm replacements →
        apply window content permuted = apply window content replacements := by
  have outcome := apply_of_fits window content replacements fits apart
  obtain ⟨placedBack, placedFits, noneUnplaced⟩ :=
    filterMap_of?_of_fits content replacements fits
  refine ⟨?_, ?_, ?_, ?_, ?_⟩
  · rw [outcome]
  · rw [outcome]
  · intro kind
    have counted := ((descending_perm (replacements.filterMap Placed.of?)).map
      fun placed => placed.replacement.kind).count_eq kind
    have kinds : (replacements.filterMap Placed.of?).map (fun placed => placed.replacement.kind) =
        replacements.map (·.kind) := by
      conv_rhs => rw [← placedBack, List.map_map]
      rfl
    calc (apply window content replacements).tally.count kind
        = ((descending (replacements.filterMap Placed.of?)).map
            (·.replacement.kind)).count kind := by
          rw [outcome, Tally.count_foldl_add, Tally.count_nil, Nat.zero_add]
      _ = (replacements.map (·.kind)).count kind := by rw [counted, kinds]
      _ = replacements.countP fun replacement => replacement.kind = kind := by
          rw [List.count, List.countP_map]
          exact List.countP_congr fun replacement _ => by
            rw [Function.comp_apply, beq_iff_eq, decide_eq_true_eq]
  · rw [outcome]
  · intro permuted permutation
    have otherFits : ∀ replacement ∈ permuted, Fits content replacement :=
      fun replacement member => fits replacement (permutation.mem_iff.mp member)
    have noneOther := (filterMap_of?_of_fits content permuted otherFits).2.2
    have starts := pairwise_start_ne placedFits (pairwise_filterMap_apart apart)
    have sameOrder : descending (permuted.filterMap Placed.of?) =
        descending (replacements.filterMap Placed.of?) :=
      (descending_eq_of_perm (permutation.symm.filterMap Placed.of?) starts).symm
    rw [apply, apply, sameOrder, noneOther, noneUnplaced]

/-- Two edits of different lengths, listed from the left, and what they leave. -/
theorem apply_exact_two_edits :
    (apply 0 "a.md b.md"
        [{ line := 1, oldHref := "a.md", newHref := "sub/a.md", start? := some 0, stop? := some 4
           kind? := none },
          { line := 1, oldHref := "b.md", newHref := "b", start? := some 5, stop? := some 9
            kind? := some Replacement.patched }]).content =
      ("sub/a.md b" : Text) := by
  refine (apply_exact 0 _ _ ?_ ?_).1.trans (by decide +kernel)
  · intro replacement member
    rcases List.mem_cons.mp member with first | later
    · subst first
      exact ⟨_, rfl, by decide +kernel, by decide +kernel, by decide +kernel, by decide +kernel⟩
    · rw [List.mem_singleton.mp later]
      exact ⟨_, rfl, by decide +kernel, by decide +kernel, by decide +kernel, by decide +kernel⟩
  · refine List.pairwise_pair.mpr ?_
    intro one other oneFound otherFound
    cases oneFound
    cases otherFound
    exact Or.inl (by decide +kernel)

end Edit
end Crosslink

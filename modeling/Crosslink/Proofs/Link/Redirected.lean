import Mathlib.Data.List.Pairwise
import Crosslink.Proofs.Edit.Simultaneous
import Crosslink.Proofs.Link.Exchanged
import Crosslink.Proofs.Markup.Stencil.Document

namespace Crosslink

/-!
The stencil of some edits.  Edits that fit a text and share no character leave a slot for each range
and letters around them.  With the old hrefs in the slots this is the text, and with the new ones it
is what the edits make of the text.
-/

namespace Edit

open Markup

variable {content before : Text} {words : Nat → Text} {edits earlier : List Placed} {edit : Placed}
  {bound : Nat}

/-- A text with a slot for the range of each edit, the last of them first. -/
def carve : List Placed → Text → Stencil
  | [], text => text.map .letter
  | edit :: earlier, text =>
    carve earlier (text.take edit.start.toNat)
      ++ .slot edit.start.toNat :: (text.drop edit.stop.toNat).map .letter

theorem text_letters (words : Nat → Text) (text : Text) :
    Stencil.text words (text.map .letter) = text := by
  rw [Stencil.text, List.flatMap_map]
  exact List.flatMap_singleton' text

theorem carve_cons (stands : edit.StandsBehind before) (behind : Text) :
    carve (edit :: earlier) (before ++ (edit.replacement.oldHref ++ behind)) =
      carve earlier before ++ .slot before.length :: behind.map .letter := by
  have stop : edit.stop.toNat = (before ++ edit.replacement.oldHref).length := by
    rw [stands.stop, Int.toNat_natCast, List.length_append]
  rw [carve, stands.start, Int.toNat_natCast, List.take_left, stop, ← List.append_assoc,
    List.drop_left]

theorem text_carve_cons (stands : edit.StandsBehind before) (behind : Text) :
    Stencil.text words (carve (edit :: earlier) (before ++ (edit.replacement.oldHref ++ behind))) =
      Stencil.text words (carve earlier before) ++ (words edit.start.toNat ++ behind) := by
  have size : edit.start.toNat = before.length := by
    rw [stands.start, Int.toNat_natCast]
  rw [carve_cons stands, Stencil.text_append, size]
  exact congrArg (fun rest => Stencil.text words (carve earlier before) ++ (words before.length ++ rest))
    (text_letters words behind)

/-- What holds of a text without edits, and of a text with one more edit behind the others if it
holds of what stands in front of that edit, holds of all edits that fit a text and share no
character. -/
theorem carve_induction {P : List Placed → Text → Prop} (none : ∀ text, P [] text)
    (step : ∀ edit earlier before behind, edit.StandsBehind before →
      (∀ other ∈ earlier, other.start < other.stop) →
      (∀ other ∈ earlier, other.stop ≤ edit.start) → P earlier before →
      P (edit :: earlier) (before ++ (edit.replacement.oldHref ++ behind)))
    (fits : ∀ edit ∈ edits, edit.Fits content)
    (descends : edits.Pairwise fun later earlier => earlier.stop ≤ later.start)
    (bounded : ∀ edit ∈ edits, edit.stop ≤ bound) : P edits (content.take bound) := by
  induction edits generalizing bound with
  | nil => exact none _
  | cons edit earlier inductionHypothesis =>
      rcases (fits edit List.mem_cons_self).exists_cut (bounded edit List.mem_cons_self) with
        ⟨start, after, stands, begins, cut⟩
      rcases List.pairwise_cons.mp descends with ⟨before, descends⟩
      have fits : ∀ other ∈ earlier, other.Fits content := fun other member =>
        fits other (List.mem_cons_of_mem edit member)
      rw [cut]
      exact step edit earlier _ after stands (fun other member => (fits other member).nonempty) before
        (inductionHypothesis fits descends fun other member => begins ▸ before other member)

/-- What a text and its stencil have to do with one another, if the words spell the old hrefs. -/
structure Carved (words : Nat → Text) (edits : List Placed) (text : Text) : Prop where
  whole : Stencil.text words (carve edits text) = text
  slots : ∀ front (slot : Nat) back, carve edits text = front ++ .slot slot :: back →
    ∃ edit ∈ edits, edit.start = slot ∧ edit.StandsBehind (Stencil.text words front)

theorem Carved.cons (carved : Carved words earlier before) (stands : edit.StandsBehind before)
    (spells : words edit.start.toNat = edit.replacement.oldHref) (behind : Text) :
    Carved words (edit :: earlier) (before ++ (edit.replacement.oldHref ++ behind)) where
  whole := by rw [text_carve_cons stands, carved.whole, spells]
  slots front slot back whole := by
    rw [carve_cons stands] at whole
    rcases Stencil.exists_of_append_eq_append_cons whole with
      ⟨more, inFront, _⟩ | ⟨inset, rfl, behindFront⟩
    · rcases carved.slots front slot more inFront with ⟨other, member, there⟩
      exact ⟨other, List.mem_cons_of_mem edit member, there⟩
    · cases inset with
      | nil =>
          obtain rfl : before.length = slot := Cell.slot.inj (List.cons.inj behindFront).1
          rw [List.append_nil, carved.whole]
          exact ⟨edit, List.mem_cons_self, stands.start, stands⟩
      | cons cell inset =>
          have inLetters : Cell.slot slot ∈ behind.map Cell.letter := by
            rw [(List.cons.inj behindFront).2]
            exact List.mem_append_right inset List.mem_cons_self
          rcases List.mem_map.mp inLetters with ⟨_, _, impossible⟩
          cases impossible

section Content

variable (fits : ∀ edit ∈ edits, edit.Fits content)
  (descends : edits.Pairwise fun later earlier => earlier.stop ≤ later.start)
include fits descends

/-- With the old hrefs in its slots, the stencil is the text. -/
theorem carved (spells : ∀ edit ∈ edits, words edit.start.toNat = edit.replacement.oldHref) :
    Carved words edits content := by
  have made := carve_induction
    (P := fun edits text => (∀ edit ∈ edits, words edit.start.toNat = edit.replacement.oldHref) →
      Carved words edits text) ?_ ?_ fits descends fun edit member => (fits edit member).within
  · rw [List.take_length] at made
    exact made spells
  · refine fun text _ => ⟨text_letters words text, fun front slot back whole => ?_⟩
    have inLetters : Cell.slot slot ∈ text.map Cell.letter := by
      rw [← carve, whole]
      exact List.mem_append_right front List.mem_cons_self
    rcases List.mem_map.mp inLetters with ⟨_, _, impossible⟩
    cases impossible
  · intro edit earlier before behind stands _ _ inFront spells
    exact (inFront fun other member => spells other (List.mem_cons_of_mem edit member)).cons stands
      (spells edit List.mem_cons_self) behind

/-- With the new hrefs in its slots, it is what the edits make of the text. -/
theorem text_carve_new
    (spells : ∀ edit ∈ edits, words edit.start.toNat = edit.replacement.newHref) :
    Stencil.text words (carve edits content) = simultaneous edits content := by
  have made := carve_induction
    (P := fun edits text => (∀ edit ∈ edits, words edit.start.toNat = edit.replacement.newHref) →
      Stencil.text words (carve edits text) = simultaneous edits text) ?_ ?_ fits descends
    fun edit member => (fits edit member).within
  · rw [List.take_length] at made
    exact made spells
  · exact fun text _ => (text_letters words text).trans (rewriteFrom_nil 0 text).symm
  · intro edit earlier before behind stands ordered ahead inFront spells
    rw [text_carve_cons stands, simultaneous_cons behind stands ordered ahead,
      inFront fun other member => spells other (List.mem_cons_of_mem edit member),
      spells edit List.mem_cons_self]

end Content

/-! ## Words -/

/-- What is written for the edit that begins at a position. -/
def wordAt (pick : Replacement → Text) (edits : List Placed) (position : Nat) : Text :=
  ((edits.find? (Placed.beginsAt position)).map fun edit => pick edit.replacement).getD ['x']

theorem wordAt_start {pick : Replacement → Text} (fits : ∀ edit ∈ edits, edit.Fits content)
    (apart : edits.Pairwise Placed.Apart) (member : edit ∈ edits) :
    wordAt pick edits edit.start.toNat = pick edit.replacement := by
  have starts : (edit.start.toNat : Int) = edit.start := Int.toNat_of_nonneg (fits edit member).nonneg
  have begins : (edits.find? (Placed.beginsAt edit.start.toNat)).isSome :=
    List.find?_isSome.mpr ⟨edit, member, decide_eq_true starts.symm⟩
  rcases Option.isSome_iff_exists.mp begins with ⟨other, found⟩
  have same : other.start = edit.start :=
    (of_decide_eq_true (List.find?_some (p := Placed.beginsAt _) found)).trans starts
  have listed := List.mem_of_find?_eq_some found
  have symmetric : Std.Symm fun one other : Placed => one.start ≠ other.start :=
    ⟨fun _ _ different => different.symm⟩
  have equal : other = edit := by
    by_contra different
    exact (pairwise_start_ne fits apart).forall listed member different same
  rw [wordAt, found, equal]
  rfl

theorem inert_wordAt {pick : Replacement → Text}
    (plain : ∀ edit ∈ edits, pick edit.replacement ≠ [] ∧
      ∀ c ∈ pick edit.replacement, isInert c = true) : Inert (wordAt pick edits) := by
  intro position
  unfold wordAt
  cases found : edits.find? (Placed.beginsAt position) with
  | none => exact ⟨List.cons_ne_nil _ _, fun c held => List.mem_singleton.mp held ▸ Stencil.isInert_x⟩
  | some edit => exact plain edit (List.mem_of_find?_eq_some found)

end Edit

/-!
## Links of a text in which destinations have been edited

An edit that puts one plain word in the place of another one, between the parenthesis behind a label
and what ends the destination, has its link lead somewhere else; every other link leads where it
led, and all of them have the texts that they had.  A word with a parenthesis or a bracket in it can
make links, or unmake them, and so can any word where the link that it is written for was not read
from.
-/

open Markup

/-- Neither angle brackets nor definitions of labels, and only spaces and tabs in front of line
breaks. -/
structure Text.Clear (text : Text) : Prop where
  noAngle : '<' ∉ text
  undefining : ¬ [']', ':'] <:+: text
  paired : text.ReturnsPaired
  plainly : text.LinesEndPlainly

/-- A test that clear texts without blanks other than spaces and tabs pass. -/
def Text.isClear (text : Text) : Bool :=
  !text.contains '<' && decide (¬ [']', ':'] <:+: text) &&
    text.splitLines.all fun line => !line.contains '\r' && line.all fun c => !isBlank c || isSpace c

theorem Text.clear_of_isClear {text : Text} (passes : text.isClear = true) : text.Clear := by
  simp only [isClear, Bool.and_eq_true, Bool.not_eq_true', List.contains_eq_mem,
    decide_eq_false_iff_not, decide_eq_true_eq, List.all_eq_true] at passes
  rcases passes with ⟨⟨noAngle, undefining⟩, lines⟩
  refine ⟨noAngle, undefining, fun line member => (lines line member).1, ?_⟩
  intro line member _ blank c held
  have plain := (lines line member).2 c (List.mem_of_mem_drop held)
  rw [blank c held] at plain
  exact plain

namespace Edit

/-- The edit puts a plain word in the place of another one, right behind a label and in front of
what ends a destination. -/
structure Placed.Tame (content : Text) (placed : Placed) : Prop where
  opens : [']', '('] <:+ content.take placed.start.toNat
  closes : ∀ c ∈ content[placed.stop.toNat]?, closesSlot c = true
  nonempty : placed.replacement.newHref ≠ []
  old : ∀ c ∈ placed.replacement.oldHref, isInert c = true
  new : ∀ c ∈ placed.replacement.newHref, isInert c = true

def Placed.isTame (content : Text) (placed : Placed) : Bool :=
  [']', '('].isSuffixOf (content.take placed.start.toNat) &&
    (content[placed.stop.toNat]?).all closesSlot && !placed.replacement.newHref.isEmpty &&
    placed.replacement.oldHref.all isInert && placed.replacement.newHref.all isInert

theorem Placed.isTame_iff {content : Text} {placed : Placed} :
    placed.isTame content = true ↔ placed.Tame content := by
  simp only [isTame, Bool.and_eq_true, List.isSuffixOf_iff_suffix, Option.all_eq_true,
    Bool.not_eq_true', List.isEmpty_eq_false_iff, List.all_eq_true]
  constructor
  · rintro ⟨⟨⟨⟨opens, closes⟩, nonempty⟩, old⟩, new⟩
    exact ⟨opens, closes, nonempty, old, new⟩
  · rintro ⟨opens, closes, nonempty, old, new⟩
    exact ⟨⟨⟨⟨opens, closes⟩, nonempty⟩, old⟩, new⟩

/-- The edit is made in the range of a link of the text, whose href it replaces. -/
def Aims (content : Text) (placed : Placed) : Prop :=
  ∃ link ∈ extractLinks content, link.href = placed.replacement.oldHref ∧
    link.start? = some placed.start ∧ link.stop? = some placed.stop

end Edit

namespace Link

open Edit

/-- A link has the text that it had, and leads where it led or where one of the edits says that
links that lead there shall lead. -/
structure Redirected (replacements : List Replacement) (link revised : Link) : Prop where
  text : revised.text = link.text
  line : revised.line = link.line
  href : revised.href = link.href ∨ ∃ replacement ∈ replacements,
    replacement.oldHref = link.href ∧ replacement.newHref = revised.href

variable {content : Text} {edits : List Placed}

/-- The stencil of edits to plain destinations. -/
theorem proper_carve (clear : content.Clear)
    (tame : ∀ edit ∈ edits, edit.Tame content) {words : Nat → Text} (inert : Inert words)
    (spells : ∀ edit ∈ edits, words edit.start.toNat = edit.replacement.oldHref)
    (carved : Carved words edits content) : (carve edits content).Proper := by
  refine Stencil.proper_of_around (fun held => ?_) fun front slot back whole => ?_
  · exact clear.noAngle (carved.whole ▸ Stencil.mem_text_of_letter held)
  · rcases carved.slots front slot back whole with ⟨edit, member, starts, stands⟩
    have calm := tame edit member
    have start : edit.start.toNat = (Stencil.text words front).length := by
      rw [stands.start, Int.toNat_natCast]
    have stop : edit.stop.toNat =
        (Stencil.text words front ++ edit.replacement.oldHref).length := by
      rw [stands.stop, Int.toNat_natCast, List.length_append]
    have slotStart : edit.start.toNat = slot := by rw [starts, Int.toNat_natCast]
    have word : words slot = edit.replacement.oldHref := slotStart ▸ spells edit member
    have shown : content = Stencil.text words front ++
        (edit.replacement.oldHref ++ Stencil.text words back) := by
      rw [← word]
      conv_lhs => rw [← carved.whole, whole, Stencil.text_append]
      rfl
    constructor
    · have opens := calm.opens
      rw [start, shown, List.take_left] at opens
      exact Stencil.endsOpen_of_text inert opens
    · refine Stencil.beginsClosed_of_text inert fun c held => calm.closes c ?_
      rw [stop, shown, ← List.append_assoc, List.getElem?_append_right (Nat.le_refl _), Nat.sub_self,
        ← List.head?_eq_getElem?]
      exact held

/-- Edits that put plain words in the place of others, where links are located, redirect links and do
nothing else to them. -/
theorem redirected_simultaneous (clear : content.Clear) (fits : ∀ edit ∈ edits, edit.Fits content)
    (apart : edits.Pairwise Placed.Apart) (aims : ∀ edit ∈ edits, Aims content edit)
    (tame : ∀ edit ∈ edits, edit.Tame content) :
    List.Forall₂ (Redirected (edits.map (·.replacement))) (extractLinks content)
      (extractLinks (simultaneous edits content)) := by
  have permuted := descending_perm edits
  have listed {edit : Placed} : edit ∈ descending edits ↔ edit ∈ edits := permuted.mem_iff
  have made : simultaneous edits content = simultaneous (descending edits) content :=
    simultaneous_eq_of_perm content permuted.symm (pairwise_start_ne fits apart)
  have inFits : ∀ edit ∈ descending edits, edit.Fits content := fun edit member =>
    fits edit (listed.mp member)
  have inTame : ∀ edit ∈ descending edits, edit.Tame content := fun edit member =>
    tame edit (listed.mp member)
  have descends := descending_stop_le fits apart
  -- The words of the slots, before the edits and after them.
  have old : Inert (wordAt (·.oldHref) edits) := inert_wordAt fun edit member =>
    ⟨(fits edit member).oldHref_ne_nil, (tame edit member).old⟩
  have new : Inert (wordAt (·.newHref) edits) := inert_wordAt fun edit member =>
    ⟨(tame edit member).nonempty, (tame edit member).new⟩
  have carved : Carved (wordAt (·.oldHref) edits) (descending edits) content :=
    carved inFits descends fun edit member => wordAt_start fits apart (listed.mp member)
  have revised : Stencil.text (wordAt (·.newHref) edits) (carve (descending edits) content) =
      simultaneous edits content :=
    (text_carve_new inFits descends fun edit member =>
      wordAt_start fits apart (listed.mp member)).trans made.symm
  have proper := proper_carve clear inTame old
    (fun edit member => wordAt_start fits apart (listed.mp member)) carved
  have paired : (carve (descending edits) content).Paired := by
    refine Stencil.paired_of_text old fun place held => ?_
    rw [carved.whole] at held ⊢
    exact clear.paired.getElem?_succ held
  have undefining : (carve (descending edits) content).Undefining :=
    Stencil.undefining_of_text (carved.whole ▸ clear.undefining)
  have plainly : EndsPlainly
      (Stencil.text (wordAt (·.oldHref) edits) (carve (descending edits) content).plain) := by
    rw [← Stencil.plainBreaks_text old paired, carved.whole]
    exact clear.plainly.plainBreaks clear.paired
  have lodged : Lodged (wordAt (·.oldHref) edits) (carve (descending edits) content) := by
    intro front slot back whole
    rcases carved.slots front slot back whole with ⟨edit, member, _, stands⟩
    rcases aims edit (listed.mp member) with ⟨link, member, _, starts, _⟩
    refine ⟨link, ?_, starts.trans (congrArg some stands.start)⟩
    rw [carved.whole]
    exact member
  have exchanged := exchanged_extractLinks proper paired undefining
    (Stencil.endsPlainly_outline plainly) old new lodged
  rw [carved.whole, revised] at exchanged
  refine exchanged.imp fun link revision changed => ⟨changed.text, changed.line, ?_⟩
  rcases changed.href with same | ⟨number, isSlot, before, after⟩
  · exact Or.inl same
  · rcases List.append_of_mem isSlot with ⟨front, back, whole⟩
    rcases carved.slots front number back whole with ⟨edit, member, starts, _⟩
    have start : edit.start.toNat = number := by rw [starts, Int.toNat_natCast]
    refine Or.inr ⟨edit.replacement, List.mem_map_of_mem (listed.mp member), ?_, ?_⟩
    · rw [before, ← start, wordAt_start fits apart (listed.mp member)]
    · rw [after, ← start, wordAt_start fits apart (listed.mp member)]

variable {replacements : List Replacement} {origins : List Link}

theorem plainly_of_inert {href : Text} (nonempty : href ≠ []) (inert : ∀ c ∈ href, isInert c = true) :
    Href.Plainly href where
  visible := by
    rcases List.exists_cons_of_ne_nil nonempty with ⟨c, rest, rfl⟩
    exact ⟨c, List.mem_cons_self, Stencil.isBlank_of_isInert (inert c List.mem_cons_self)⟩
  oneLine held := nomatch inert _ held

section Copies

variable (window : Int) (copied : List.Forall₂ Replacement.Copies replacements origins)
  (among : origins.Sublist (extractLinks content))
include copied among

/-- Replacements that copy links and know where their hrefs stand change just these hrefs, each in
its place, if they can be seen and stand on one line. -/
theorem apply_of_copies (located : ∀ replacement ∈ replacements, (Placed.of? replacement).isSome)
    (plainly : ∀ replacement ∈ replacements, Href.Plainly replacement.oldHref) :
    (Edit.apply window content replacements).content =
        simultaneous (replacements.filterMap Placed.of?) content ∧
      (replacements.filterMap Placed.of?).map (·.replacement) = replacements ∧
      (replacements.filterMap Placed.of?).Pairwise Placed.Apart ∧
      ∀ placed ∈ replacements.filterMap Placed.of?,
        placed.Fits content ∧ Aims content placed := by
  have fits : ∀ placed ∈ replacements.filterMap Placed.of?,
      placed.Fits content ∧ Aims content placed := by
    intro placed listed
    rcases List.mem_filterMap.mp listed with ⟨replacement, asked, found⟩
    rcases exists_origin copied asked with ⟨link, member, copies⟩
    refine ⟨fits_of_copies copies (among.subset member) found, link, among.subset member, ?_,
      ends_of_placed copies found⟩
    rw [Placed.replacement_of? found, copies.oldHref]
  have each : ∀ replacement ∈ replacements, Edit.Fits content replacement := by
    intro replacement asked
    rcases Option.isSome_iff_exists.mp (located replacement asked) with ⟨placed, found⟩
    exact ⟨placed, found, (fits placed (List.mem_filterMap.mpr ⟨replacement, asked, found⟩)).1⟩
  have apart : (replacements.filterMap Placed.of?).Pairwise Placed.Apart := by
    refine pairwise_placed_of_copies copied among fun link member => ?_
    rcases exists_origin copied.flip member with ⟨replacement, asked, copies⟩
    exact copies.oldHref ▸ plainly replacement asked
  refine ⟨(apply_exact window content replacements each ?_).1,
    (filterMap_of?_of_fits content replacements each).1, apart, fits⟩
  rw [List.pairwise_filterMap] at apart
  exact apart.imp fun away one other oneFound otherFound => away one oneFound other otherFound

/-- Replacements that copy links and put plain words in the place of others redirect links, and do
nothing else to them. -/
theorem redirected_of_copies (clear : content.Clear)
    (tame : ∀ replacement ∈ replacements, ∃ placed, Placed.of? replacement = some placed ∧
      placed.Tame content) :
    List.Forall₂ (Redirected replacements) (extractLinks content)
      (extractLinks (Edit.apply window content replacements).content) := by
  have located : ∀ replacement ∈ replacements, (Placed.of? replacement).isSome := by
    intro replacement asked
    rcases tame replacement asked with ⟨placed, found, _⟩
    exact Option.isSome_of_mem found
  have plainly : ∀ replacement ∈ replacements, Href.Plainly replacement.oldHref := by
    intro replacement asked
    rcases tame replacement asked with ⟨placed, found, calm⟩
    rcases exists_origin copied asked with ⟨link, member, copies⟩
    have fits := fits_of_copies copies (among.subset member) found
    rw [← Placed.replacement_of? found]
    exact plainly_of_inert fits.oldHref_ne_nil calm.old
  rcases apply_of_copies window copied among located plainly with ⟨made, whole, apart, fits⟩
  have calm : ∀ placed ∈ replacements.filterMap Placed.of?, placed.Tame content := by
    intro placed listed
    rcases List.mem_filterMap.mp listed with ⟨replacement, asked, found⟩
    rcases tame replacement asked with ⟨other, same, calm⟩
    cases same.symm.trans found
    exact calm
  have redirected := redirected_simultaneous clear (fun placed listed => (fits placed listed).1)
    apart (fun placed listed => (fits placed listed).2) calm
  rw [whole] at redirected
  rw [made]
  exact redirected

end Copies

/-- Links that are redirected have their texts. -/
theorem texts_of_redirected {links revised : List Link}
    (redirected : List.Forall₂ (Redirected replacements) links revised) :
    revised.map (·.text) = links.map (·.text) := by
  induction redirected with
  | nil => rfl
  | cons here _ inductionHypothesis =>
      rw [List.map_cons, List.map_cons, here.text, inductionHypothesis]

end Link

end Crosslink

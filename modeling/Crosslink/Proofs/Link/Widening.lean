import Crosslink.Proofs.Link.Apart
import Crosslink.Proofs.Text.Breaks
import Mathlib.Data.List.Forall2

namespace Crosslink

/-!
Links of a text whose line breaks are written with carriage returns.  The reader of blocks does not
see the carriage returns, and the columns of inline lines stay, since trimming takes carriage
returns off the ends of lines.  So the same links are found on the same lines, and a range moves by
the line breaks before it.  An href that holds a line break is the exception: its range is only
recorded where the text spells it, and the wide text has a carriage return there.
-/

namespace Location

open Markup

variable {content : Text} {leaf : Leaf}

theorem position?_widened (content : Text) (leaf : Leaf) (position : Nat) :
    (Location.of (content.widened.splitOn '\n') leaf position).position? =
      (Location.of (content.splitOn '\n') leaf position).position?.map
        (· + lineOf leaf position) := by
  unfold Location.of lineOf
  dsimp only
  generalize leaf.line + (leaf.content.take position).count '\n' = number
  rw [Text.splitOn_widened]
  cases held : (content.splitOn '\n')[number]? with
  | none =>
      have none_wide : (Text.returned (content.splitOn '\n'))[number]? = none := by
        rw [List.getElem?_eq_none_iff, Text.length_returned]
        exact List.getElem?_eq_none_iff.mp held
      rw [none_wide]
      rfl
  | some line =>
      rcases Text.exists_returned held with ⟨ending, heldWide, ends⟩
      have blank : ∀ c ∈ ending, isBlank c = true := by
        rintro c member
        rcases ends with rfl | rfl
        · cases member
        · exact List.mem_singleton.mp member ▸ by decide
      have start := Text.lineStart_returned (List.getElem?_eq_some_iff.mp held).1
      rw [heldWide]
      simp only [bind, Option.bind_some, Text.trimEnd_append blank, start]
      cases column? _ line.trimEnd with
      | none => rfl
      | some column =>
          rw [Option.bind_some, Option.bind_some]
          refine congrArg some ?_
          dsimp only
          omega

theorem hrefRange?_widened {href : Text} (notBroken : '\n' ∉ href) (notReturned : '\r' ∉ href)
    (content : Text) (position : Nat) :
    hrefRange? content.widened href (position + (content.take position).count '\n') =
      (hrefRange? content href position).map fun range =>
        (range.1 + (content.take position).count '\n',
          range.2 + (content.take position).count '\n') := by
  have same := Text.startsWith_widened notBroken notReturned (content.drop position)
  unfold hrefRange?
  dsimp only
  rw [Text.drop_widened, same.1]
  split
  · rfl
  · next begins =>
      rw [Bool.or_eq_true, not_or, Bool.not_eq_true, Bool.not_eq_true, Bool.not_eq_false'] at begins
      rw [same.2 begins.2]
      cases behind : (content.drop position).drop href.length with
      | nil => rw [Nat.add_right_comm]; rfl
      | cons c rest =>
          rw [Nat.add_right_comm]
          by_cases isBreak : c = '\n'
          · rw [isBreak, Text.widened_break]
            rfl
          · rw [Text.widened_cons_of_ne isBreak]
            dsimp only
            split
            · rfl
            · rfl

def widenRange (content : Text) (range : Nat × Nat) : Nat × Nat :=
  (range.1 + (content.take range.1).count '\n', range.2 + (content.take range.2).count '\n')

/-- The range of an href without line breaks ends behind as many line breaks as it begins. -/
theorem widenRange_of_found {href : Text} (notBroken : '\n' ∉ href) {position : Nat}
    {range : Nat × Nat} (found : hrefRange? content href position = some range) :
    widenRange content range = (range.1 + (content.take position).count '\n',
      range.2 + (content.take position).count '\n') := by
  rcases hrefRange?_eq_some found with ⟨rfl, _, begins, _⟩
  rcases begins with ⟨rest, whole⟩
  have inside : (content.take (position + href.length)).count '\n' =
      (content.take position).count '\n' := by
    rw [List.take_add, ← whole, List.take_left, List.count_append,
      List.count_eq_zero.mpr notBroken, Nat.add_zero]
  exact Prod.ext rfl (congrArg (position + href.length + ·) inside)

section Stretch

variable {stretch : Stretch}

/-- A carriage return that is left of a reference is not spelled where the reference stands. -/
theorem range?_widened_of_return (plain : '\r' ∉ content) (plainLeaf : '\r' ∉ leaf.content)
    (fits : stretch.Fits leaf.content.toArray 0 leaf.content.length)
    (visible : Visible stretch.href) {front back : Text}
    (holds : stretch.href = front ++ '\r' :: back) (oneLine : '\n' ∉ front) :
    range? content.widened leaf stretch.aim = none := by
  cases made : range? content.widened leaf stretch.aim with
  | none => rfl
  | some range =>
      exfalso
      rcases exists_found (fits.ordered.trans fits.le_high) made with
        ⟨line, tail, own, place, inset, found, _, _⟩
      rcases found.exists_cut (found.place_lt (found.exists_visible fits visible)).le with
        ⟨ahead, behind, cut, same⟩
      dsimp only [Stretch.aim] at cut same
      rw [holds, List.append_assoc, List.cons_append] at cut same
      -- The wide text goes on with a line break, so its line ends with the carriage return.
      rw [← List.append_assoc] at cut
      rcases Text.break_behind_return plain cut with ⟨more, goesOn⟩
      have whole : line.drop place = front ++ ['\r'] := by
        have inLine : '\n' ∉ line.drop place := fun held =>
          found.notBreak (List.mem_of_mem_drop held)
        have firstLine := congrArg (Text.before '\n') same
        rwa [Text.before_append _ inLine, found.ends, List.append_nil, goesOn,
          Text.before_append _ oneLine, Text.before_cons_of_ne (by decide),
          Text.before_cons_self] at firstLine
      have plainRaw : '\r' ∉ Source.between leaf.content.toArray stretch.start stretch.stop :=
        fun held => plainLeaf (List.mem_of_mem_drop ((isPrefix_between _ _ _).subset held))
      rcases (found.writes_of_fits fits).returns front back holds plainRaw oneLine with
        ⟨step, c, further, held, seen⟩
      -- But the end of the reference has not been trimmed off, and it stands there or behind.
      have inOwn := Text.getElem?_of_prefix found.raw_prefix held
      rw [List.getElem?_drop] at inOwn
      have kept := Text.lt_length_trimEnd inOwn seen
      rcases Text.isPrefix_trimEnd own with ⟨_, trimmed⟩
      rw [← trimmed, List.getElem?_append_left kept, ← List.getElem?_drop] at inOwn
      have inLine := Text.getElem?_of_prefix found.inLine inOwn
      rw [whole, List.getElem?_append_right further] at inLine
      rw [List.mem_singleton.mp (List.mem_of_getElem? inLine)] at seen
      cases seen

/-- Nor is a line break. -/
theorem range?_widened_of_break (plain : '\r' ∉ content) (plainLeaf : '\r' ∉ leaf.content)
    (fits : stretch.Fits leaf.content.toArray 0 leaf.content.length)
    (visible : Visible stretch.href) (broken : '\n' ∈ stretch.href) :
    range? content.widened leaf stretch.aim = none := by
  cases made : range? content.widened leaf stretch.aim with
  | none => rfl
  | some range =>
      exfalso
      rcases exists_found (fits.ordered.trans fits.le_high) made with
        ⟨line, tail, own, place, inset, found, _, _⟩
      have inside := found.place_lt (found.exists_visible fits visible)
      rcases found.exists_cut inside.le with ⟨ahead, behind, cut, same⟩
      rcases List.eq_append_cons_of_mem broken with ⟨front, back, holds, oneLine⟩
      dsimp only [Stretch.aim] at cut same
      rw [holds, List.append_assoc, List.cons_append] at cut same
      rcases List.eq_nil_or_concat front with rfl | ⟨earlier, c, rfl⟩
      · rw [List.drop_eq_getElem_cons inside] at same
        exact found.notBreak ((List.cons.inj same).1 ▸ List.getElem_mem inside)
      · rw [← List.append_assoc] at cut
        rcases Text.return_before_break cut with ⟨more, ends⟩
        rw [List.concat_eq_append, ← List.append_assoc] at ends
        have isReturn := List.singleton_inj.mp (List.append_inj' ends rfl).2
        rw [List.concat_eq_append, isReturn, List.append_assoc] at holds
        have notBroken : '\n' ∉ earlier := fun held =>
          oneLine (List.concat_eq_append ▸ List.mem_append_left _ held)
        have never := range?_widened_of_return plain plainLeaf fits visible holds notBroken
        rw [made] at never
        cases never

/-- A range that is found in the text or in the wide one is found on the line of its leaf. -/
theorem count_take_of_range? (fits : stretch.Fits leaf.content.toArray 0 leaf.content.length)
    (plainly : Href.Plainly stretch.href) {position : Nat}
    (carried : (Location.of (content.splitOn '\n') leaf stretch.start).position? = some position)
    (made : (range? content leaf stretch.aim).isSome = true ∨
      (range? content.widened leaf stretch.aim).isSome = true) :
    (content.take position).count '\n' = lineOf leaf stretch.start := by
  rcases position?_eq_some carried with ⟨line, column, held, _, _⟩
  rw [← lineOf] at held
  rcases made with narrow | wide
  · rcases Option.isSome_iff_exists.mp narrow with ⟨range, found⟩
    have onLine := (onLine_of_fits fits plainly found).1
    rcases range?_eq_some found with ⟨same, nonempty, _, stop⟩
    cases carried.symm.trans same
    have high := onLine.high
    rw [lineStart_succ held] at high
    exact count_take_of_line held onLine.low (by omega)
  · rcases Option.isSome_iff_exists.mp wide with ⟨range, found⟩
    have onLine := (onLine_of_fits fits plainly found).1
    rcases range?_eq_some found with ⟨same, nonempty, _, stop⟩
    dsimp only [Stretch.aim] at same
    rw [position?_widened, carried] at same
    have place : position + lineOf leaf stretch.start = range.1 := Option.some.inj same
    rcases Text.exists_returned held with ⟨ending, heldWide, ends⟩
    have short : ending.length ≤ 1 := by
      rcases ends with rfl | rfl
      · exact Nat.zero_le 1
      · exact Nat.le_refl 1
    have start := Text.lineStart_returned (List.getElem?_eq_some_iff.mp held).1
    have low := onLine.low
    have high := onLine.high
    have positive := List.length_pos_iff.mpr nonempty
    rw [Text.splitOn_widened] at low high
    rw [lineStart_succ heldWide, List.length_append] at high
    dsimp only [Stretch.aim] at positive stop
    exact count_take_of_line held (by omega) (by omega)

/-- The range of an href without line breaks moves by the line breaks before it. -/
theorem range?_widened_of_oneLine (plain : '\r' ∉ content) (plainLeaf : '\r' ∉ leaf.content)
    (fits : stretch.Fits leaf.content.toArray 0 leaf.content.length)
    (visible : Visible stretch.href) (notBroken : '\n' ∉ stretch.href) :
    range? content.widened leaf stretch.aim =
      (range? content leaf stretch.aim).map (widenRange content) := by
  by_cases returned : '\r' ∈ stretch.href
  · rcases List.eq_append_cons_of_mem returned with ⟨front, back, holds, _⟩
    have inFront : '\n' ∉ front := fun held => notBroken (holds ▸ List.mem_append_left _ held)
    rw [range?_widened_of_return plain plainLeaf fits visible holds inFront]
    cases made : range? content leaf stretch.aim with
    | none => rfl
    | some range =>
        have begins := (range?_eq_some made).2.2.1
        exact absurd (List.mem_of_mem_drop (begins.subset returned)) plain
  · cases carried : (Location.of (content.splitOn '\n') leaf stretch.start).position? with
    | none => simp only [range?, Stretch.aim, position?_widened, carried, Option.map_none,
        Option.bind_none]
    | some position =>
        by_cases counted : (content.take position).count '\n' = lineOf leaf stretch.start
        · simp only [range?, Stretch.aim, position?_widened, carried, Option.map_some,
            Option.bind_some]
          rw [← counted, hrefRange?_widened notBroken returned]
          cases made : hrefRange? content stretch.href position with
          | none => rfl
          | some range =>
              rw [Option.map_some, Option.map_some, widenRange_of_found notBroken made]
        · -- A range that were found would be found on the line of the leaf.
          have neither := mt (count_take_of_range? fits ⟨visible, notBroken⟩ carried) counted
          rw [not_or, Option.not_isSome_iff_eq_none, Option.not_isSome_iff_eq_none] at neither
          rw [neither.1, neither.2]
          rfl

end Stretch

end Location

namespace Link

open Markup

def widenPlace (content : Text) (position : Int) : Int :=
  position + ((content.take position.toNat).count '\n' : Nat)

/-- The link with its range moved to where it stands in the text with wide line breaks. -/
def moved (content : Text) (link : Link) : Link :=
  { link with
    start? := link.start?.map (widenPlace content)
    stop? := link.stop?.map (widenPlace content) }

/-- What becomes of a link when the line breaks of its text are widened. -/
structure Widened (content : Text) (link wide : Link) : Prop where
  href : wide.href = link.href
  text : wide.text = link.text
  line : wide.line = link.line
  moved : Visible link.href → '\n' ∉ link.href → wide = link.moved content
  broken : Visible link.href → '\n' ∈ link.href → wide.start? = none ∧ wide.stop? = none

theorem widenPlace_natCast (content : Text) (position : Nat) :
    widenPlace content position = ((position + (content.take position).count '\n' : Nat) : Int) := by
  rw [widenPlace, Int.toNat_natCast, Int.natCast_add]

theorem widened_ofAnchor {content : Text} {leaf : Leaf} {anchor : Anchor} {href : Text}
    {stretch : Stretch} (plain : '\r' ∉ content) (plainLeaf : '\r' ∉ leaf.content)
    (fits : stretch.Fits leaf.content.toArray 0 leaf.content.length)
    (aim : stretch.aim = (href, anchor.destination)) (text : Text) :
    Widened content (ofAnchor content (content.splitOn '\n') leaf anchor href text)
      (ofAnchor content.widened (content.widened.splitOn '\n') leaf anchor href text) := by
  have made (content : Text) : (Location.of (content.splitOn '\n') leaf
      anchor.destination).position?.bind (Location.hrefRange? content href) =
        Location.range? content leaf stretch.aim := by
    rw [aim]
    rfl
  have same : stretch.href = href := congrArg Prod.fst aim
  refine ⟨rfl, rfl, rfl, fun visible notBroken => ?_, fun visible broken => ?_⟩
  · have range := Location.range?_widened_of_oneLine plain plainLeaf fits (same ▸ visible)
      (same ▸ notBroken)
    unfold ofAnchor moved
    dsimp only
    rw [made, made, range]
    cases Location.range? content leaf stretch.aim with
    | none => rfl
    | some found =>
        simp only [Option.map_some, widenPlace_natCast]
        rfl
  · have range := Location.range?_widened_of_break plain plainLeaf fits (same ▸ visible)
      (same ▸ broken)
    unfold ofAnchor
    dsimp only
    rw [made, range]
    exact ⟨rfl, rfl⟩

theorem widened_ofTokens {content : Text} {leaf : Leaf} (plain : '\r' ∉ content)
    (plainLeaf : '\r' ∉ leaf.content) {tokens : List Token}
    (fit : ∀ token ∈ tokens, ∀ anchor href, token.event = .linkOpen anchor →
      anchor.target? = some href → ∃ stretch : Stretch, stretch.aim = (href, anchor.destination) ∧
        stretch.Fits leaf.content.toArray 0 leaf.content.length) :
    List.Forall₂ (Widened content) (ofTokens content (content.splitOn '\n') leaf tokens)
      (ofTokens content.widened (content.widened.splitOn '\n') leaf tokens) := by
  induction tokens with
  | nil => exact .nil
  | cons token rest inductionHypothesis =>
      have further := inductionHypothesis fun other member =>
        fit other (List.mem_cons_of_mem token member)
      rw [ofTokens, ofTokens]
      split
      · next anchor opens =>
          split
          · next href leads =>
              rcases fit token List.mem_cons_self anchor href opens leads with
                ⟨stretch, aim, fits⟩
              exact .cons (widened_ofAnchor plain plainLeaf fits aim _) further
          · exact further
      · exact further

end Link

/-- A text without carriage returns has the same links, on the same lines, when its line feeds are
written with carriage returns before them.  A range moves by the line feeds before each of its
ends; the range of an href that holds a line feed itself is lost, since the wide text does not
spell such an href. -/
theorem extractLinks_widened (content : Text) (plain : '\r' ∉ content) :
    List.Forall₂ (Link.Widened content) (extractLinks content) (extractLinks content.widened) := by
  have same : Markup.Document.ofText content.widened = Markup.Document.ofText content := by
    unfold Markup.Document.ofText
    rw [Markup.plainBreaks_widened plain]
  unfold extractLinks
  dsimp only
  rw [same]
  have leaves : ∀ leaf ∈ (Markup.Document.ofText content).leaves, '\r' ∉ leaf.content := by
    intro leaf member returned
    rcases (Markup.spelled_of_mem_leaves member).chars _ returned with space | inText
    · exact absurd space (by decide)
    · exact Markup.return_not_mem_plainBreaks content inText
  generalize (Markup.Document.ofText content).labels = labels
  generalize (Markup.Document.ofText content).leaves = among at leaves ⊢
  induction among with
  | nil => exact .nil
  | cons leaf rest inductionHypothesis =>
      rw [List.flatMap_cons, List.flatMap_cons]
      refine List.rel_append ?_ (inductionHypothesis fun other member =>
        leaves other (List.mem_cons_of_mem leaf member))
      exact Link.widened_ofTokens plain (leaves leaf List.mem_cons_self)
        fun token member anchor href opens leads =>
          Markup.exists_stretch_of_mem_inlineTokens member opens leads

/-- Two paragraphs, the second of which is a link over two lines. -/
theorem extractLinks_widened_paragraphs :
    '\r' ∉ ("[a](b.md)\n\n[c\nd](e.md)" : Text) ∧
      List.Forall₂ (Link.Widened "[a](b.md)\n\n[c\nd](e.md)")
        (extractLinks "[a](b.md)\n\n[c\nd](e.md)")
        (extractLinks (Text.widened "[a](b.md)\n\n[c\nd](e.md)")) :=
  have plain : '\r' ∉ ("[a](b.md)\n\n[c\nd](e.md)" : Text) := by decide
  ⟨plain, extractLinks_widened _ plain⟩

/-- A destination with a line break in it is found in the one text and not in the other. -/
theorem extractLinks_widened_escaped :
    '\r' ∉ ("[x](<a\\\nb>)" : Text) ∧
      extractLinks (Text.widened "[x](<a\\\nb>)") ≠
        (extractLinks "[x](<a\\\nb>)").map (Link.moved "[x](<a\\\nb>)") := by
  decide +kernel

end Crosslink

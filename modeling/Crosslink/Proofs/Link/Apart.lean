import Crosslink.Proofs.Link.Location
import Crosslink.Proofs.Link.Range
import Crosslink.Proofs.Markup.Inline.Anchors
import Crosslink.Proofs.Markup.Leaves

namespace Crosslink

/-!
Ranges of different links.  A position of inline text is carried to its line of the document, and
all positions of an inline line are carried by the same shift, so destinations that lie apart stay
apart.  For this a range has to lie on the line that it is carried to: the href may not hold a
line break, and something of it must be visible, since blank characters at the end of an inline
line are not looked for in the document.
-/

/-- The href can be seen and stands on one line. -/
structure Href.Plainly (href : Text) : Prop where
  visible : Markup.Visible href
  oneLine : '\n' ∉ href

namespace Location

open Markup

variable {content : Text} {leaf : Leaf}

/-- The range of an href that is read at a position of a leaf. -/
def range? (content : Text) (leaf : Leaf) (aim : Aim) : Option (Nat × Nat) :=
  (Location.of (content.splitOn '\n') leaf aim.2).position?.bind (hrefRange? content aim.1)

/-- A range begins where its position is carried to, and spells the href. -/
theorem range?_eq_some {aim : Aim} {range : Nat × Nat}
    (found : range? content leaf aim = some range) :
    (Location.of (content.splitOn '\n') leaf aim.2).position? = some range.1 ∧ aim.1 ≠ [] ∧
      aim.1 <+: content.drop range.1 ∧ range.2 = range.1 + aim.1.length := by
  rcases Option.bind_eq_some_iff.mp found with ⟨position, carried, spelled⟩
  rcases hrefRange?_eq_some spelled with ⟨rfl, nonempty, begins, _⟩
  exact ⟨carried, nonempty, begins, rfl⟩

def lineOf (leaf : Leaf) (position : Nat) : Nat :=
  leaf.line + (leaf.content.take position).count '\n'

structure OnLine (content : Text) (number : Nat) (range : Nat × Nat) : Prop where
  low : lineStart (content.splitOn '\n') number ≤ range.1
  high : range.2 < lineStart (content.splitOn '\n') (number + 1)

theorem OnLine.before {first second : Nat} {range other : Nat × Nat}
    (here : OnLine content first range) (there : OnLine content second other)
    (ordered : first < second) : range.2 ≤ other.1 :=
  here.high.le.trans ((lineStart_mono _ ordered).trans there.low)

/-- What a stretch holds begins where the stretch does. -/
theorem isPrefix_between (content : Text) (start stop : Nat) :
    Source.between content.toArray start stop <+: content.drop start := by
  rw [Source.between_eq]
  exact Text.drop_prefix_drop (List.take_prefix stop content) start

/-- Where an href is found that is read at a position of a leaf: at a place of its line of the
document, in which the inline line of the position stands with the position at that place. -/
structure Found (content : Text) (leaf : Leaf) (aim : Aim) (line tail own : Text)
    (place inset : Nat) : Prop where
  held : (content.splitOn '\n')[lineOf leaf aim.2]? = some line
  whole : content.drop (lineStart (content.splitOn '\n') (lineOf leaf aim.2)) = line ++ tail
  notBreak : '\n' ∉ line
  ends : Text.before '\n' tail = []
  begins : aim.1 <+: (line ++ tail).drop place
  inLine : own.trimEnd.drop inset <+: line.drop place
  rest : own.drop inset = Text.before '\n' (leaf.content.drop aim.2)

theorem exists_found {aim : Aim} {range : Nat × Nat} (within : aim.2 ≤ leaf.content.length)
    (found : range? content leaf aim = some range) :
    ∃ line tail own place inset, Found content leaf aim line tail own place inset ∧
      range.1 = lineStart (content.splitOn '\n') (lineOf leaf aim.2) + place ∧
      range.2 = range.1 + aim.1.length := by
  rcases range?_eq_some found with ⟨carried, _, begins, stop⟩
  rcases position?_eq_some carried with ⟨line, column, held, stands, place⟩
  rcases exists_line_of_le within with ⟨own, heldOwn, _, rest⟩
  rcases exists_drop_lineStart held with ⟨notBreak, tail, ends, whole⟩
  rw [heldOwn, Option.getD_some] at stands
  rw [place, Nat.add_assoc, ← List.drop_drop, whole] at begins
  generalize aim.2 - lineStart (leaf.content.splitOn '\n')
    ((leaf.content.take aim.2).count '\n') = inset at rest place begins
  have inLine : own.trimEnd.drop inset <+: line.drop (column + inset) := by
    have inner := Text.drop_prefix_drop (prefix_drop_of_column? stands) inset
    rw [List.drop_drop] at inner
    exact inner.trans (Text.drop_prefix_drop (Text.isPrefix_trimEnd line) _)
  exact ⟨line, tail, own, column + inset, inset,
    ⟨held, whole, notBreak, ends, begins, inLine, rest⟩, by rw [place, ← Nat.add_assoc]; rfl, stop⟩

namespace Found

variable {aim : Aim} {line tail own : Text} {place inset : Nat}

/-- What can be seen behind the position has not been trimmed off, so the place is on the line. -/
theorem place_lt (found : Found content leaf aim line tail own place inset)
    (visible : ∃ c ∈ own.drop inset, isBlank c = false) : place < line.length := by
  rcases visible with ⟨c, inOwn, seen⟩
  rcases List.mem_iff_getElem?.mp inOwn with ⟨step, there⟩
  rw [List.getElem?_drop] at there
  have inPiece := Text.lt_length_trimEnd there seen
  have inRest := found.inLine.length_le
  rw [List.length_drop, List.length_drop] at inRest
  omega

/-- An href of one line ends on the line of the document that it begins on, if something of it can
be seen on its line of the leaf. -/
theorem length_le_of_visible (found : Found content leaf aim line tail own place inset)
    (oneLine : '\n' ∉ aim.1) (visible : ∃ c ∈ own.drop inset, isBlank c = false) :
    place + aim.1.length ≤ line.length := by
  have inside := found.place_lt visible
  have begins := found.begins
  rw [List.drop_append_of_le_length inside.le] at begins
  have fitsLine := Text.isPrefix_before '\n' begins
  rw [Text.before_of_not_mem oneLine,
    Text.before_append _ fun held => found.notBreak (List.mem_of_mem_drop held), found.ends,
    List.append_nil] at fitsLine
  have short := fitsLine.length_le
  rw [List.length_drop] at short
  omega

variable {stretch : Stretch}

theorem raw_prefix (found : Found content leaf stretch.aim line tail own place inset) :
    Text.before '\n' (Source.between leaf.content.toArray stretch.start stretch.stop) <+:
      own.drop inset :=
  found.rest ▸ Text.isPrefix_before '\n' (isPrefix_between leaf.content stretch.start stretch.stop)

/-- A stretch writes the href that is found.  Where it holds a mail address, the document does not
spell the href that names the address. -/
theorem writes_of_fits (found : Found content leaf stretch.aim line tail own place inset)
    (fits : stretch.Fits leaf.content.toArray 0 leaf.content.length) :
    Writes (Source.between leaf.content.toArray stretch.start stretch.stop) stretch.href := by
  rcases fits.gives with writes | ⟨address, mails⟩
  · exact writes
  · have oneLine : '\n' ∉ address := fun held => absurd (mails.graphic _ held).1 (by decide)
    have inFirst := Text.isPrefix_before '\n' mails.begins
    rw [Text.before_of_not_mem oneLine] at inFirst
    have kept := Text.prefix_drop_trimEnd (inFirst.trans found.raw_prefix)
      fun c held => (mails.graphic c held).1
    exact absurd found.begins (mails.not_prefix ((kept.trans found.inLine).trans
      (Text.drop_prefix_drop (List.prefix_append line tail) place)))

/-- What stands in front of the href in the document and behind it. -/
theorem exists_cut (found : Found content leaf aim line tail own place inset)
    (inside : place ≤ line.length) :
    ∃ front back, content = front ++ (aim.1 ++ back) ∧ line.drop place ++ tail = aim.1 ++ back := by
  have begins := found.begins
  rw [List.drop_append_of_le_length inside] at begins
  rcases begins with ⟨back, whole⟩
  refine ⟨content.take (lineStart (content.splitOn '\n') (lineOf leaf aim.2)) ++ line.take place,
    back, ?_, whole.symm⟩
  rw [whole, List.append_assoc, ← List.append_assoc (line.take place), List.take_append_drop,
    ← found.whole, List.take_append_drop]

/-- If anything of the href can be seen, so can something behind its position in the leaf. -/
theorem exists_visible (found : Found content leaf stretch.aim line tail own place inset)
    (fits : stretch.Fits leaf.content.toArray 0 leaf.content.length)
    (visible : Visible stretch.href) : ∃ c ∈ own.drop inset, isBlank c = false := by
  rcases (found.writes_of_fits fits).visible visible with ⟨c, inFirst, seen⟩
  exact ⟨c, found.raw_prefix.subset inFirst, seen⟩

end Found

/-- Where the href of a stretch is found, if it can be seen and stands on one line. -/
theorem onLine_of_fits {stretch : Stretch}
    (fits : stretch.Fits leaf.content.toArray 0 leaf.content.length)
    (plainly : Href.Plainly stretch.href) {range : Nat × Nat}
    (made : range? content leaf stretch.aim = some range) :
    OnLine content (lineOf leaf stretch.start) range ∧
      range.2 + stretch.start ≤ range.1 + stretch.stop := by
  rcases exists_found (fits.ordered.trans fits.le_high) made with
    ⟨line, tail, own, place, inset, found, start, stop⟩
  have short := found.length_le_of_visible plainly.oneLine
    (found.exists_visible fits plainly.visible)
  have length := (found.writes_of_fits fits).length_le
  have held := found.held
  have ordered := fits.ordered
  rw [Source.between_eq, List.length_drop, List.length_take] at length
  dsimp only [Stretch.aim] at start stop short held
  refine ⟨⟨?_, ?_⟩, ?_⟩
  · omega
  · rw [lineStart_succ held]
    omega
  · omega

/-- Positions of one inline line are carried by one shift. -/
theorem range?_shift {first second : Aim} {range other : Nat × Nat}
    (firstWithin : first.2 ≤ leaf.content.length) (secondWithin : second.2 ≤ leaf.content.length)
    (foundFirst : range? content leaf first = some range)
    (foundSecond : range? content leaf second = some other)
    (sameLine : lineOf leaf first.2 = lineOf leaf second.2) :
    range.1 + second.2 = other.1 + first.2 := by
  have sameNumber := Nat.add_left_cancel sameLine
  rcases position?_eq_some (range?_eq_some foundFirst).1 with
    ⟨line, column, held, stands, place⟩
  rcases position?_eq_some (range?_eq_some foundSecond).1 with
    ⟨line', column', held', stands', place'⟩
  rcases exists_line_of_le firstWithin with ⟨_, _, ahead, _⟩
  rcases exists_line_of_le secondWithin with ⟨_, _, ahead', _⟩
  rw [sameNumber] at held stands place ahead
  rw [held] at held'
  cases held'
  rw [stands] at stands'
  cases stands'
  omega

theorem le_or_le_of_apart {first second : Stretch} (apart : first.Apart second)
    (fitsFirst : first.Fits leaf.content.toArray 0 leaf.content.length)
    (fitsSecond : second.Fits leaf.content.toArray 0 leaf.content.length)
    (plainlyFirst : Href.Plainly first.href) (plainlySecond : Href.Plainly second.href)
    {range other : Nat × Nat} (foundFirst : range? content leaf first.aim = some range)
    (foundSecond : range? content leaf second.aim = some other) :
    range.2 ≤ other.1 ∨ other.2 ≤ range.1 := by
  rcases onLine_of_fits fitsFirst plainlyFirst foundFirst with ⟨here, short⟩
  rcases onLine_of_fits fitsSecond plainlySecond foundSecond with ⟨there, short'⟩
  rcases Nat.lt_trichotomy (lineOf leaf first.start) (lineOf leaf second.start) with
    earlier | same | later
  · exact Or.inl (here.before there earlier)
  · have shift := range?_shift (fitsFirst.ordered.trans fitsFirst.le_high)
      (fitsSecond.ordered.trans fitsSecond.le_high) foundFirst foundSecond same
    dsimp only [Stretch.aim] at shift
    rcases apart with before | behind
    · exact Or.inl (by omega)
    · exact Or.inr (by omega)
  · exact Or.inr (there.before here later)

end Location

namespace Link

open Markup

/-- The ranges of two links, where both are known, do not overlap. -/
def Apart (first second : Link) : Prop :=
  ∀ start stop start' stop' : Int, first.start? = some start → first.stop? = some stop →
    second.start? = some start' → second.stop? = some stop' → stop ≤ start' ∨ stop' ≤ start

variable {content : Text} {leaf : Leaf}

structure ReadFrom (content : Text) (leaf : Leaf) (stretch : Stretch) (link : Link) : Prop where
  fits : stretch.Fits leaf.content.toArray 0 leaf.content.length
  href : link.href = stretch.href
  start : link.start? =
    (Location.range? content leaf stretch.aim).map fun range => (range.1 : Int)
  stop : link.stop? =
    (Location.range? content leaf stretch.aim).map fun range => (range.2 : Int)

theorem ReadFrom.exists_range {stretch : Stretch} {link : Link}
    (read : link.ReadFrom content leaf stretch) {start stop : Int} (hasStart : link.start? = some start)
    (hasStop : link.stop? = some stop) :
    ∃ range : Nat × Nat, Location.range? content leaf stretch.aim = some range ∧
      start = range.1 ∧ stop = range.2 := by
  rw [read.start] at hasStart
  rw [read.stop] at hasStop
  rcases Option.map_eq_some_iff.mp hasStart with ⟨range, found, rfl⟩
  rw [found] at hasStop
  exact ⟨range, found, rfl, (Option.some.inj hasStop).symm⟩

/-- Links that can be seen and stand on one line do not overlap. -/
def PlainlyApart (first second : Link) : Prop :=
  Href.Plainly first.href → Href.Plainly second.href → first.Apart second

theorem ReadFrom.plainlyApart {first second : Stretch} {link other : Link}
    (read : link.ReadFrom content leaf first) (readOther : other.ReadFrom content leaf second)
    (apart : first.Apart second) : link.PlainlyApart other := by
  intro plainly plainlyOther start stop start' stop' hasStart hasStop hasStart' hasStop'
  rcases read.exists_range hasStart hasStop with ⟨range, found, rfl, rfl⟩
  rcases readOther.exists_range hasStart' hasStop' with ⟨range', found', rfl, rfl⟩
  have ordered := Location.le_or_le_of_apart apart read.fits readOther.fits
    (read.href ▸ plainly) (readOther.href ▸ plainlyOther) found found'
  exact ordered.imp Int.ofNat_le.mpr Int.ofNat_le.mpr

/-- Links of different leaves do not overlap, since their ranges stand on different lines. -/
theorem ReadFrom.plainlyApart_of_lastLine {leaf' : Leaf} {first second : Stretch}
    {link other : Link} (read : link.ReadFrom content leaf first)
    (readOther : other.ReadFrom content leaf' second) (behind : leaf.lastLine < leaf'.line) :
    link.PlainlyApart other := by
  intro plainly plainlyOther start stop start' stop' hasStart hasStop hasStart' hasStop'
  rcases read.exists_range hasStart hasStop with ⟨range, found, rfl, rfl⟩
  rcases readOther.exists_range hasStart' hasStop' with ⟨range', found', rfl, rfl⟩
  have here := (Location.onLine_of_fits read.fits (read.href ▸ plainly) found).1
  have there := (Location.onLine_of_fits readOther.fits (readOther.href ▸ plainlyOther) found').1
  have inLeaf : Location.lineOf leaf first.start ≤ leaf.lastLine :=
    Nat.add_le_add_left ((List.take_sublist _ _).count_le _) _
  have later : leaf'.line ≤ Location.lineOf leaf' second.start := Nat.le_add_right _ _
  exact Or.inl (Int.ofNat_le.mpr (here.before there (by omega)))

theorem exists_origin {α β : Type} {Stems : α → β → Prop} {items : List α} {origins : List β}
    (stems : List.Forall₂ Stems items origins) {item : α} (member : item ∈ items) :
    ∃ origin ∈ origins, Stems item origin := by
  induction stems with
  | nil => exact absurd member List.not_mem_nil
  | @cons _ origin _ origins stemsHere _ inductionHypothesis =>
      rcases List.mem_cons.mp member with rfl | later
      · exact ⟨origin, List.mem_cons_self, stemsHere⟩
      · rcases inductionHypothesis later with ⟨other, listed, stemsOther⟩
        exact ⟨other, List.mem_cons_of_mem origin listed, stemsOther⟩

/-- What holds between the origins of a list holds between its items, if it passes from two origins
to what stems from them. -/
theorem pairwise_of_stems {α β : Type} {Stems : α → β → Prop} {Before : α → α → Prop}
    {Precedes : β → β → Prop} {items : List α} {origins : List β}
    (stems : List.Forall₂ Stems items origins) (ordered : origins.Pairwise Precedes)
    (passes : ∀ {item other origin source}, Stems item origin → Stems other source →
      Precedes origin source → Before item other) : items.Pairwise Before := by
  induction stems with
  | nil => exact .nil
  | cons stemsHere rest inductionHypothesis =>
      rcases List.pairwise_cons.mp ordered with ⟨ahead, orderedRest⟩
      refine List.pairwise_cons.mpr ⟨fun other member => ?_, inductionHypothesis orderedRest⟩
      rcases exists_origin rest member with ⟨source, listed, stemsOther⟩
      exact passes stemsHere stemsOther (ahead source listed)

theorem readFrom_ofTokens {tokens : List Token} {stretches : List Stretch}
    (same : stretches.map Stretch.aim = tokens.filterMap (·.event.aim?))
    (fit : ∀ stretch ∈ stretches, stretch.Fits leaf.content.toArray 0 leaf.content.length) :
    List.Forall₂ (fun link stretch => link.ReadFrom content leaf stretch)
      (ofTokens content (content.splitOn '\n') leaf tokens) stretches := by
  induction tokens generalizing stretches with
  | nil =>
      rw [List.map_eq_nil_iff.mp same]
      exact .nil
  | cons token rest inductionHypothesis =>
      have further (opensNone : token.event.aim? = none) :=
        inductionHypothesis (same.trans (List.filterMap_cons_none opensNone)) fit
      rw [ofTokens]
      split
      · next anchor opens =>
          split
          · next href leads =>
              have aim : token.event.aim? = some (href, anchor.destination) := by
                rw [opens, Event.aim?_linkOpen, leads]
                rfl
              have shown := same.trans (List.filterMap_cons_some aim)
              rcases List.map_eq_cons_iff.mp shown with ⟨stretch, others, rfl, own, later⟩
              have read : (ofAnchor content (content.splitOn '\n') leaf anchor href
                  (linkText token.level rest)).ReadFrom content leaf stretch := by
                refine ⟨fit stretch List.mem_cons_self, (congrArg Prod.fst own).symm, ?_, ?_⟩
                all_goals
                  rw [own]
                  rfl
              exact .cons read (inductionHypothesis later
                fun other member => fit other (List.mem_cons_of_mem _ member))
          · next leads =>
              refine further ?_
              rw [opens, Event.aim?_linkOpen, leads]
              rfl
      · next notOpen =>
          refine further ?_
          cases event : token.event
          case linkOpen anchor => exact absurd event (notOpen anchor)
          all_goals rfl

/-- No two links of a text that can be seen and stand on one line overlap. -/
theorem pairwise_extractLinks (content : Text) :
    (extractLinks content).Pairwise PlainlyApart := by
  have each (leaf : Leaf) :=
    (inlineTokens_laid (Document.ofText content).labels leaf.content).stretches
  rw [extractLinks, List.pairwise_flatMap]
  constructor
  · intro leaf _
    rcases each leaf with ⟨stretches, same, fit, apart⟩
    exact pairwise_of_stems (readFrom_ofTokens same fit) apart ReadFrom.plainlyApart
  · refine (leaves_pairwise content).imp fun {first second} behind link member other memberOther => ?_
    rcases each first with ⟨stretches, same, fit, _⟩
    rcases each second with ⟨stretches', same', fit', _⟩
    rcases exists_origin (readFrom_ofTokens same fit) member with ⟨_, _, read⟩
    rcases exists_origin (readFrom_ofTokens same' fit') memberOther with ⟨_, _, readOther⟩
    exact read.plainlyApart_of_lastLine readOther behind

/-! ## Edits that copy links -/

open Edit in
/-- An edit that copies a link is made by position exactly if the link has a range, and then in
that range. -/
theorem ends_of_placed {replacement : Replacement} {link : Link} {placed : Placed}
    (copies : replacement.Copies link) (found : Placed.of? replacement = some placed) :
    link.start? = some placed.start ∧ link.stop? = some placed.stop := by
  rcases Option.map_eq_some_iff.mp found with ⟨range, known, rfl⟩
  rw [Replacement.range?, copies.start, copies.stop] at known
  split at known
  · next start stop hasStart hasStop =>
      cases known
      exact ⟨hasStart, hasStop⟩
  · cases known

open Edit in
/-- Edits by position that copy links of a text find their old hrefs where they look for them. -/
theorem fits_of_copies {content : Text} {replacement : Replacement} {link : Link} {placed : Placed}
    (copies : replacement.Copies link) (member : link ∈ extractLinks content)
    (found : Placed.of? replacement = some placed) : placed.Fits content := by
  rcases exists_anchor_of_mem_extractLinks member with ⟨leaf, _, anchor, href, text, rfl⟩
  rcases spelled_ofAnchor content (content.splitOn '\n') leaf anchor href text with
    unknown | ⟨position, _, spelled⟩
  · have known := (ends_of_placed copies found).1
    rw [unknown.1] at known
    cases known
  · rcases spelled.fits copies with ⟨other, same, fits⟩
    rw [found] at same
    exact Option.some.inj same ▸ fits

/-- An edit by line copies a link that was found without a range. -/
theorem start?_of_range?_eq_none {content : Text} {replacement : Replacement} {link : Link}
    (copies : replacement.Copies link) (member : link ∈ extractLinks content)
    (unplaced : replacement.range? = none) : link.start? = none := by
  rcases exists_anchor_of_mem_extractLinks member with ⟨leaf, _, anchor, href, text, rfl⟩
  rcases spelled_ofAnchor content (content.splitOn '\n') leaf anchor href text with
    unknown | ⟨position, _, spelled⟩
  · exact unknown.1
  · have placed := spelled.placed copies
    rw [Edit.Placed.of?, unplaced] at placed
    cases placed

open Edit in
/-- Edits by position that copy different links lie apart, if the hrefs can be seen and stand on
one line. -/
theorem pairwise_placed_of_copies {content : Text} {replacements : List Replacement}
    {origins : List Link} (copied : List.Forall₂ Replacement.Copies replacements origins)
    (among : origins.Sublist (extractLinks content))
    (plainly : ∀ link ∈ origins, Href.Plainly link.href) :
    (replacements.filterMap Placed.of?).Pairwise Placed.Apart := by
  have apart : origins.Pairwise Link.Apart :=
    ((pairwise_extractLinks content).sublist among).imp_of_mem fun inFirst inSecond plainlyApart =>
      plainlyApart (plainly _ inFirst) (plainly _ inSecond)
  rw [List.pairwise_filterMap]
  refine pairwise_of_stems copied apart ?_
  intro replacement other link origin copies copiesOther apart placed found placed' found'
  have here := ends_of_placed copies found
  have there := ends_of_placed copiesOther found'
  exact apart _ _ _ _ here.1 here.2 there.1 there.2

end Link

/-- Two different links of a text with ranges have no position in common, if both hrefs can be seen
and stand on one line. -/
theorem extractLinks_disjoint (content : Text) {first second : Nat} {link other : Link}
    (different : first ≠ second) (held : (extractLinks content)[first]? = some link)
    (heldOther : (extractLinks content)[second]? = some other)
    (plainly : Href.Plainly link.href) (plainlyOther : Href.Plainly other.href)
    {start stop start' stop' : Int} (hasStart : link.start? = some start)
    (hasStop : link.stop? = some stop) (hasStart' : other.start? = some start')
    (hasStop' : other.stop? = some stop') (position : Int) :
    ¬ ((start ≤ position ∧ position < stop) ∧ start' ≤ position ∧ position < stop') := by
  have ordered := List.pairwise_iff_getElem.mp (Link.pairwise_extractLinks content)
  rcases List.getElem?_eq_some_iff.mp held with ⟨inside, rfl⟩
  rcases List.getElem?_eq_some_iff.mp heldOther with ⟨insideOther, rfl⟩
  rcases Nat.lt_or_gt_of_ne different with before | behind
  · have apart := ordered first second inside insideOther before plainly plainlyOther
      start stop start' stop' hasStart hasStop hasStart' hasStop'
    omega
  · have apart := ordered second first insideOther inside behind plainlyOther plainly
      start' stop' start stop hasStart' hasStop' hasStart hasStop
    omega

/-- The same href twice on one line. -/
theorem extractLinks_disjoint_repeated :
    let content : Text := "[a](b.md) [c](b.md)"
    let link : Link := { href := "b.md", text := "a", line := 1, start? := some 4, stop? := some 8 }
    let other : Link :=
      { href := "b.md", text := "c", line := 1, start? := some 14, stop? := some 18 }
    (extractLinks content)[0]? = some link ∧ (extractLinks content)[1]? = some other ∧
      Href.Plainly link.href ∧
      ∀ position : Int, ¬ ((4 ≤ position ∧ position < 8) ∧ 14 ≤ position ∧ position < 18) :=
  have held : (extractLinks _)[0]? = some _ := by decide +kernel
  have heldOther : (extractLinks _)[1]? = some _ := by decide +kernel
  have plainly : Href.Plainly ("b.md" : Text) := ⟨⟨'b', by decide, by decide⟩, by decide⟩
  ⟨held, heldOther, plainly,
    extractLinks_disjoint _ (by decide) held heldOther plainly plainly rfl rfl rfl rfl⟩

def rangesOf (content : Text) : List (Int × Int) :=
  (extractLinks content).filterMap fun link =>
    link.start?.bind fun start => link.stop?.map fun stop => (start, stop)

/-- Blank hrefs at the end of their lines: one of two different links is given the range of the
other. -/
example :
    rangesOf "\u00a0\n) [y](<\u00a0>) [x](\n) [y](<\u00a0>) [x](        \u00a0\n) [y](<\u00a0>)\n" =
      [(9, 10), (25, 26), (25, 26)] := by
  decide +kernel

/-- Hrefs that hold line breaks: the range of one reaches into that of the other. -/
example :
    rangesOf "\r[x](<a\\\r&#10;&#10;b>)\r[y](\rb>)\n[x](<a\\\n\n\nb>)" = [(37, 43), (42, 44)] := by
  decide +kernel

end Crosslink

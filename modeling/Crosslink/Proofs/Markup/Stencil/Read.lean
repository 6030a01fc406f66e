import Crosslink.Proofs.Markup.Inline.Anchors
import Crosslink.Proofs.Markup.Stencil.Pass

namespace Crosslink
namespace Markup

/-- Where the destinations of some links begin. -/
def destinations (anchors : List Anchor) : List Nat :=
  (anchors.filterMap Anchor.aim?).map Prod.snd

theorem destinations_append (first rest : List Anchor) :
    destinations (first ++ rest) = destinations first ++ destinations rest := by
  rw [destinations, List.filterMap_append, List.map_append]
  rfl

/-- Links begin their destinations behind where reading began and not behind where it ended. -/
theorem Anchored.destinations_bounds {source : Source} {low high : Nat}
    {anchors : List Anchor} (anchored : Anchored source low high anchors) :
    ∀ destination ∈ destinations anchors, low < destination ∧ destination ≤ high := by
  intro destination member
  rcases List.mem_map.mp member with ⟨aim, listed, rfl⟩
  exact anchored.laid.bounds aim listed

theorem Advance.destinations_le {scene : Scene} {position : Nat} {draft : Draft}
    {result : Nat × Draft} (advance : Advance scene position draft result) :
    ∃ first, result.2.anchors = draft.anchors ++ first ∧
      ∀ destination ∈ destinations first, destination ≤ result.1 := by
  rcases advance.wrote with ⟨first, wrote, anchored⟩
  refine ⟨first, wrote, fun destination member => ?_⟩
  exact (anchored.destinations_bounds destination member).2.trans (Nat.min_le_left _ _)

namespace Stencil

/-!
What is written of a filled text.  It is what is written of the outline with the links moved to
their places and with the words for the destinations that are slots; or else some slot is the
destination of no link, neither in the outline nor in the filled text.
-/

variable {words : Nat → Text} {stencil : Stencil}

/-! ## Links of a filled text -/

/-- Where a link of the filled text leads whose destination begins at a position of the outline. -/
def href (words : Nat → Text) (stencil : Stencil) (destination : Nat) (own : Text) : Text :=
  match stencil[destination]? with
  | some (.slot number) => words number
  | _ => own

theorem href_of_slot {destination number : Nat}
    (held : stencil[destination]? = some (.slot number)) (own : Text) :
    href words stencil destination own = words number := by
  rw [href, held]

theorem href_of_not_isSlot {destination : Nat} (bare : ¬ stencil.IsSlot destination) (own : Text) :
    href words stencil destination own = own := by
  unfold href
  split
  · next number held => exact absurd ⟨number, held⟩ bare
  · rfl

/-- The link of the filled text that is a link of the outline. -/
def fillAnchor (words : Nat → Text) (stencil : Stencil) (anchor : Anchor) : Anchor where
  target? := anchor.target?.map (href words stencil anchor.destination)
  position := place words stencil anchor.position
  destination := place words stencil anchor.destination

/-- A piece of the filled text that is a piece of the outline. -/
abbrev fillPiece (words : Nat → Text) (stencil : Stencil) : Piece → Piece :=
  Piece.exchange (fillAnchor words stencil)

/-! ## The same draft -/

/-- What has been read of the filled text is what has been read of the outline. -/
structure SameDraft (words : Nat → Text) (stencil : Stencil) (draft draft' : Draft) : Prop where
  pieces : draft'.pieces = draft.pieces.map (fillPiece words stencil)
  pending : draft'.pending = draft.pending
  follows : Follows words stencil draft.memory draft'.memory

namespace SameDraft

variable {draft draft' : Draft}

theorem flush (same : SameDraft words stencil draft draft') :
    SameDraft words stencil draft.flush draft'.flush := by
  unfold Draft.flush
  rw [same.pending]
  split
  · exact same
  · exact ⟨congrArg (_ :: ·) same.pieces, rfl, same.follows⟩

theorem write (same : SameDraft words stencil draft draft') (piece : Piece) :
    SameDraft words stencil (draft.write piece) (draft'.write (fillPiece words stencil piece)) :=
  ⟨congrArg (_ :: ·) same.flush.pieces, same.flush.pending, same.flush.follows⟩

theorem writeEvents (same : SameDraft words stencil draft draft') (events : List Event) :
    SameDraft words stencil (draft.writeEvents events)
      (draft'.writeEvents (events.map (Event.exchange (fillAnchor words stencil)))) :=
  same.write (.settled events)

theorem marks (same : SameDraft words stencil draft draft') {mark : Piece}
    (opensNone : mark.anchors = []) (length : Nat) :
    SameDraft words stencil ((List.replicate length mark).foldl Draft.write draft)
      ((List.replicate length mark).foldl Draft.write draft') := by
  induction length generalizing draft draft' with
  | zero => exact same
  | succ length inductionHypothesis =>
      have written := same.write mark
      rw [fillPiece, Piece.exchange_eq_self opensNone] at written
      exact inductionHypothesis written

theorem gather (same : SameDraft words stencil draft draft') (text : Text) :
    SameDraft words stencil (draft.gather text) (draft'.gather text) :=
  ⟨same.pieces, congrArg (text.reverse ++ ·) same.pending, same.follows⟩

theorem breakLine (same : SameDraft words stencil draft draft') :
    SameDraft words stencil draft.breakLine draft'.breakLine := by
  have dropped (pending : Text) : SameDraft words stencil { draft with pending }
      { draft' with pending } :=
    ⟨same.pieces, rfl, same.follows⟩
  unfold Draft.breakLine
  rw [same.pending]
  split
  · exact (dropped _).writeEvents [.object]
  · exact (dropped _).writeEvents [.softBreak]
  · exact same.writeEvents [.softBreak]

/-- Other things may be remembered. -/
theorem remember (same : SameDraft words stencil draft draft') {memory memory' : Memory}
    (follows : Follows words stencil memory memory') :
    SameDraft words stencil { draft with memory } { draft' with memory := memory' } :=
  ⟨same.pieces, same.pending, follows⟩

end SameDraft

/-! ## Slots that are no destination -/

/-- A slot between two positions is the destination of no link, neither of the outline nor of the
filled text. -/
def Missed (words : Nat → Text) (stencil : Stencil) (start stop : Nat)
    (anchors anchors' : List Anchor) : Prop :=
  ∃ slot, stencil.IsSlot slot ∧ start ≤ slot ∧ slot < stop ∧ slot ∉ destinations anchors ∧
    place words stencil slot ∉ destinations anchors'

end Stencil

/-!
## Reading a filled text

The reader of the filled text goes where the reader of the outline goes, construct by construct,
until it comes to the parenthesis in front of a slot.  The word behind such a parenthesis is read as
text there, so the slot is the destination of no link; the same is true of a slot in the middle of a
destination.  So if each slot is a destination, in the one text or in the other, the two are read
alike.
-/

namespace Stencil

open Scene

variable {words : Nat → Text} {stencil : Stencil} {position stop : Nat}

/-! ## What comes of reading -/

/-- Reading on, from two drafts: the drafts stay the same, or a slot is missed. -/
def SameRun (words : Nat → Text) (stencil : Stencil) (start stop : Nat)
    (draft draft' result result' : Draft) : Prop :=
  SameDraft words stencil result result' ∨
    ∃ anchors anchors', result.anchors = draft.anchors ++ anchors ∧
      result'.anchors = draft'.anchors ++ anchors' ∧
        Missed words stencil start stop anchors anchors'

/-- What is read of the outline and of the filled text. -/
def SameRead (words : Nat → Text) (stencil : Stencil) (start stop : Nat)
    (found found' : List Piece × Memory) : Prop :=
  (found'.1 = found.1.map (fillPiece words stencil) ∧ Follows words stencil found.2 found'.2) ∨
    Missed words stencil start stop (found.1.flatMap Piece.anchors)
      (found'.1.flatMap Piece.anchors)

/-- A way of reading labels reads those of the filled text as those of the outline. -/
def ReadsAlike (words : Nat → Text) (stencil : Stencil)
    (inside : Scene → Nat → Memory → List Piece × Memory) : Prop :=
  ∀ stop position memory memory', stencil.Closed stop → stencil.Reached position →
    position ≤ stop → Follows words stencil memory memory' → memory.Sound → memory'.Sound →
      SameRead words stencil position stop (inside (stencil.sketch stop) position memory)
        (inside (scene words stencil stop) (place words stencil position) memory')

/-- What comes of one construct. -/
structure SameStep (words : Nat → Text) (stencil : Stencil) (stop position : Nat)
    (draft draft' : Draft) (result result' : Nat × Draft) : Prop where
  next : result'.1 = place words stencil result.1
  ahead : position < result.1
  reached : stencil.Reached result.1
  run : SameRun words stencil position (min result.1 stop) draft draft' result.2 result'.2

/-- A construct is read alike in the outline and in the filled text. -/
def StepsAlike (words : Nat → Text) (stencil : Stencil) (stop : Nat)
    (inside : Scene → Nat → Memory → List Piece × Memory) (levels position : Nat)
    (draft draft' : Draft) (c : Char) : Prop :=
  SameStep words stencil stop position draft draft'
    ((stencil.sketch stop).readNext ((stencil.sketch stop).skip levels) inside position c draft)
    ((scene words stencil stop).readNext ((scene words stencil stop).skip levels) inside
      (place words stencil position) c draft')

/-! ## Links -/

theorem destinations_cons {anchor : Anchor} {own : Text} (leads : anchor.target? = some own)
    (rest : List Anchor) :
    destinations (anchor :: rest) = anchor.destination :: destinations rest := by
  have aim : anchor.aim? = some (own, anchor.destination) := by
    rw [Anchor.aim?, leads, Option.map_some]
  rw [destinations, List.filterMap_cons_some aim, List.map_cons]
  rfl

/-- A label that misses a slot makes a link that misses it, because the destination of the link
lies behind. -/
theorem Missed.link {anchors anchors' : List Anchor} {anchor anchor' : Anchor} {own own' : Text}
    {labelEnd last : Nat} (inert : Inert words)
    (missed : Missed words stencil (position + 1) labelEnd anchors anchors')
    (leads : anchor.target? = some own) (leads' : anchor'.target? = some own')
    (placed : anchor'.destination = place words stencil anchor.destination)
    (behind : labelEnd < anchor.destination) (within : labelEnd ≤ last) :
    Missed words stencil position last (anchor :: anchors) (anchor' :: anchors') := by
  have mono : StrictMono (place words stencil) := place_strictMono inert
  rcases missed with ⟨slot, isSlot, ahead, before, absent, absent'⟩
  refine ⟨slot, isSlot, Nat.le_of_succ_le ahead, Nat.lt_of_lt_of_le before within, ?_, ?_⟩
  · rw [destinations_cons leads, List.mem_cons]
    exact not_or.mpr ⟨by omega, absent⟩
  · rw [destinations_cons leads', List.mem_cons, placed, mono.injective.eq_iff]
    exact not_or.mpr ⟨by omega, absent'⟩

/-- A slot in the middle of a destination is missed. -/
theorem missed_of_inside {anchors anchors' : List Anchor} {anchor anchor' : Anchor}
    {own own' : Text} {low labelEnd last slot : Nat} (inert : Inert words)
    (anchored : Anchored stencil.drawn low labelEnd anchors)
    (anchored' : Anchored (filled words stencil) (place words stencil low)
      (place words stencil labelEnd) anchors')
    (leads : anchor.target? = some own) (leads' : anchor'.target? = some own')
    (placed : anchor'.destination = place words stencil anchor.destination)
    (behind : labelEnd < anchor.destination) (isSlot : stencil.IsSlot slot)
    (inside : anchor.destination < slot) (before : slot < last) (ahead : position ≤ slot) :
    Missed words stencil position last (anchor :: anchors) (anchor' :: anchors') := by
  have mono : StrictMono (place words stencil) := place_strictMono inert
  refine ⟨slot, isSlot, ahead, before, ?_, ?_⟩
  · rw [destinations_cons leads, List.mem_cons]
    refine not_or.mpr ⟨by omega, fun member => ?_⟩
    have bounds := anchored.destinations_bounds slot member
    omega
  · rw [destinations_cons leads', List.mem_cons, placed, mono.injective.eq_iff]
    refine not_or.mpr ⟨by omega, fun member => ?_⟩
    have bounds := mono.le_iff_le.mp (anchored'.destinations_bounds _ member).2
    omega

/-- The links that a link adds to what was read before. -/
theorem anchors_writeLink (draft : Draft) (memory : Memory) (anchor : Anchor)
    (pieces : List Piece) :
    ({ draft with memory }.writeEvents
        (Event.linkOpen anchor :: settle pieces ++ [Event.linkClose])).anchors =
      draft.anchors ++ anchor :: pieces.flatMap Piece.anchors := by
  rw [Draft.anchors_writeEvents, anchors_link]
  rfl

/-- Backticks that begin no code span end with their run. -/
theorem stop_ticksAt_of_not_isSpan {scene : Scene} {memory : Memory}
    (noSpan : (scene.ticksAt position memory).1.isSpan = false) :
    (scene.ticksAt position memory).1.stop =
      scene.source.pass (· == '\x60') scene.stop (position + 1) := by
  revert noSpan
  unfold ticksAt
  dsimp only
  split
  · exact fun _ => rfl
  · split
    · exact fun noSpan => nomatch noSpan
    · exact fun _ => rfl

section Read

variable {inside : Scene → Nat → Memory → List Piece × Memory} {draft draft' : Draft}

theorem stepsAlike_link (proper : stencil.Proper) (inert : Inert words)
    (closed : stencil.Closed stop) (reads : Inside inside)
    (alike : ReadsAlike words stencil inside) (same : SameDraft words stencil draft draft')
    (sound : draft.memory.Sound) (sound' : draft'.memory.Sound)
    (held : stencil[position]? = some (.letter '[')) (levels : Nat) :
    StepsAlike words stencil stop inside levels position draft draft' '[' := by
  have next : place words stencil (position + 1) = place words stencil position + 1 :=
    place_succ_of_letter held
  have goesOn : stencil.Reached (position + 1) := proper.reached_succ held (by decide)
  have lies := link?_lies (skip_forward (stencil.sketch stop) levels) position sound
  have lies' := link?_lies (skip_forward (scene words stencil stop) levels)
    (place words stencil position) sound'
  have link := link?_scene (skip_matches proper inert closed levels) closed proper inert held
    same.follows
  simp only [StepsAlike, readNext, Char.reduceEq, reduceIte, decide_false, Bool.or_self,
    Bool.false_eq_true]
  revert lies lies' link
  generalize (stencil.sketch stop).link? _ position draft.memory = found
  generalize (scene words stencil stop).link? _ (place words stencil position) draft'.memory =
    found'
  rcases found with ⟨link, memory⟩
  rcases found' with ⟨link', memory'⟩
  rintro ⟨sound, lies⟩ ⟨sound', _⟩
    ⟨_ | @⟨labelEnd, start, last, href, href', label, bracket, behind, within, reached, leads⟩,
      follows⟩
  · exact ⟨next.symm, Nat.lt_succ_self position, goesOn,
      Or.inl ((same.remember follows).gather ['['])⟩
  · have inScene : last ≤ stop := by
      rcases (lies _ rfl).target _ _ rfl with ⟨_, _, _, _, inScene, _⟩
      exact inScene
    have alike := alike labelEnd (position + 1) memory memory' (Or.inr bracket) goesOn label follows
      sound sound'
    have anchored := (reads (stencil.sketch labelEnd) (position + 1) memory sound).2
    have anchored' := (reads (scene words stencil labelEnd) (place words stencil (position + 1))
      memory' sound').2
    refine ⟨rfl, (label.trans behind).trans within, reached, ?_⟩
    dsimp only [Option.map_some, Option.getD_some]
    rw [← next]
    revert alike anchored anchored'
    generalize inside (stencil.sketch labelEnd) (position + 1) memory = read
    generalize inside (scene words stencil labelEnd) (place words stencil (position + 1)) memory' =
      read'
    rcases read with ⟨pieces, memory⟩
    rcases read' with ⟨pieces', memory'⟩
    intro alike anchored anchored'
    rcases alike with ⟨read, follows⟩ | missed
    · by_cases inside : ∃ slot, stencil.IsSlot slot ∧ start < slot ∧ slot < last
      · rcases inside with ⟨slot, isSlot, further, short⟩
        refine Or.inr ⟨_, _, anchors_writeLink .., anchors_writeLink .., ?_⟩
        exact missed_of_inside inert anchored anchored' rfl rfl rfl behind isSlot further
          (by omega) (by omega)
      · refine Or.inl ?_
        have exchanged : href' = Stencil.href words stencil start href := by
          by_cases isSlot : stencil.IsSlot start
          · rcases isSlot with ⟨number, slot⟩
            rw [href_of_slot slot]
            exact leads.word number slot
          · rw [href_of_not_isSlot isSlot]
            refine leads.same fun slot ahead short held => inside ⟨slot, held, ?_, short⟩
            exact Nat.lt_of_le_of_ne ahead fun equal => isSlot (equal ▸ held)
        have written := (same.remember follows).writeEvents (Event.linkOpen
          { target? := some href, position, destination := start } :: settle pieces ++
            [Event.linkClose])
        rw [map_exchange_link] at written
        rw [exchanged, show pieces' = _ from read]
        exact written
    · refine Or.inr ⟨_, _, anchors_writeLink .., anchors_writeLink .., ?_⟩
      have short : labelEnd < last := behind.trans within
      exact missed.link inert rfl rfl rfl behind (by omega)

theorem stepsAlike_break (proper : stencil.Proper) (inert : Inert words)
    (same : SameDraft words stencil draft draft')
    (held : stencil[position]? = some (.letter '\n')) (levels : Nat) :
    StepsAlike words stencil stop inside levels position draft draft' '\n' := by
  have goes := proper.reached_behindBreak (proper.reached_succ held (by decide)) stop
  exact ⟨behindBreak_scene inert (not_isSlot_of_letter held) stop, goes.1, goes.2,
    Or.inl same.breakLine⟩

/-- One character is read as it stands. -/
theorem sameStep_gather (same : SameDraft words stencil draft draft') {c : Char}
    (held : stencil[position]? = some (.letter c)) (goesOn : stencil.Reached (position + 1)) :
    SameStep words stencil stop position draft draft' (position + 1, draft.gather [c])
      (place words stencil position + 1, draft'.gather [c]) :=
  ⟨(place_succ_of_letter held).symm, Nat.lt_succ_self position, goesOn, Or.inl (same.gather [c])⟩

theorem stepsAlike_backslash (proper : stencil.Proper) (inert : Inert words)
    (same : SameDraft words stencil draft draft')
    (held : stencil[position]? = some (.letter '\\')) (levels : Nat) :
    StepsAlike words stencil stop inside levels position draft draft' '\\' := by
  simp only [StepsAlike, readNext, Char.reduceEq, reduceIte]
  rw [escape?_scene proper inert held]
  cases found : (stencil.sketch stop).escape? position with
  | none => exact sameStep_gather same held (proper.reached_succ held (by decide))
  | some escape =>
      have goes := proper.reached_escape? held found
      rcases escape with ⟨_ | escaped, behind⟩
      · exact ⟨rfl, goes.1, goes.2, Or.inl (same.writeEvents [.object])⟩
      · exact ⟨rfl, goes.1, goes.2, Or.inl (same.writeEvents [.text (escapedText escaped)])⟩

theorem stepsAlike_backtick (proper : stencil.Proper) (inert : Inert words)
    (closed : stencil.Closed stop) (same : SameDraft words stencil draft draft')
    (held : stencil[position]? = some (.letter '\x60')) (levels : Nat) :
    StepsAlike words stencil stop inside levels position draft draft' '\x60' := by
  have ticks := ticksAt_scene proper inert closed.le_length held same.follows.ticks
  have goes : position < ((stencil.sketch stop).ticksAt position draft.memory).1.stop ∧
      stencil.Reached ((stencil.sketch stop).ticksAt position draft.memory).1.stop :=
    proper.reached_ticksAt held
  have follows := same.follows.of_ticks (ends_ticksAt ..) (ends_ticksAt ..) ticks.2
  have kept := same.remember follows
  simp only [StepsAlike, readNext, Char.reduceEq, reduceIte]
  rw [ticks.1]
  cases isSpan : ((stencil.sketch stop).ticksAt position draft.memory).1.isSpan with
  | true => exact ⟨rfl, goes.1, goes.2, Or.inl (kept.writeEvents [.object])⟩
  | false =>
      have run := (pass_backticks proper inert held stop).2
      rw [← stop_ticksAt_of_not_isSpan isSpan] at run
      refine ⟨rfl, goes.1, goes.2, Or.inl ?_⟩
      dsimp only
      rw [run, Nat.add_sub_cancel_left]
      exact kept.gather _

theorem stepsAlike_mark (proper : stencil.Proper) (inert : Inert words)
    (same : SameDraft words stencil draft draft') (before : position < stop)
    (reached : stencil.Reached position) {c : Char} (mark : c = '*' ∨ c = '_')
    (held : stencil[position]? = some (.letter c)) (levels : Nat) :
    StepsAlike words stencil stop inside levels position draft draft' c := by
  have notParenthesis : ((· == c) : Char → Bool) '(' = false := by
    rcases mark with rfl | rfl <;> decide
  have blunt : ((· == c) : Char → Bool) 'x' = false := by
    rcases mark with rfl | rfl <;> decide
  have ahead : position + 1 ≤ stencil.drawn.pass (· == c) stop position :=
    Source.le_pass_of before fun place later short =>
      ⟨c, (by omega : place = position) ▸ drawn_of_letter held, beq_self_eq_true c⟩
  have far : position + (stencil.drawn.pass (· == c) stop position - position) =
      stencil.drawn.pass (· == c) stop position := Nat.add_sub_cancel' (by omega)
  have read (scene : Scene) (skip : Skipper) (position : Nat) (draft : Draft) :
      scene.readNext skip inside position c draft = (position + (scene.run position c).1,
        (List.replicate (scene.run position c).1 (scene.run position c).2).foldl Draft.write
          draft) := by
    rcases mark with rfl | rfl <;> rfl
  rw [StepsAlike, read, read, run_scene proper inert held mark stop]
  refine ⟨?_, ?_, ?_, Or.inl (same.marks rfl _)⟩
  · exact (proper.place_pass notParenthesis reached.notSlot stop).symm.trans (congrArg _ far.symm)
  · exact Nat.lt_of_lt_of_eq ahead far.symm
  · exact far.symm ▸ proper.reached_pass notParenthesis blunt reached stop

theorem stepsAlike_image (proper : stencil.Proper) (inert : Inert words)
    (closed : stencil.Closed stop) (same : SameDraft words stencil draft draft')
    (held : stencil[position]? = some (.letter '!')) (levels : Nat) :
    StepsAlike words stencil stop inside levels position draft draft' '!' := by
  have image := imageEnd?_scene (skip_matches proper inert closed levels) closed proper inert held
    same.follows
  simp only [StepsAlike, readNext, Char.reduceEq, reduceIte, decide_false, Bool.or_self,
    Bool.false_eq_true]
  revert image
  generalize (stencil.sketch stop).imageEnd? _ position draft.memory = found
  generalize (scene words stencil stop).imageEnd? _ (place words stencil position) draft'.memory =
    found'
  rcases found with ⟨_ | last, memory⟩ <;> rcases found' with ⟨_ | last', memory'⟩ <;>
    rintro ⟨ends, follows, goes⟩ <;> cases ends
  · exact ⟨(place_succ_of_letter held).symm, Nat.lt_succ_self position,
      proper.reached_succ held (by decide), Or.inl ((same.remember follows).gather ['!'])⟩
  · have goes := goes last rfl
    exact ⟨rfl, goes.1, goes.2, Or.inl ((same.remember follows).writeEvents [.object])⟩

theorem stepsAlike_ampersand (proper : stencil.Proper) (inert : Inert words)
    (same : SameDraft words stencil draft draft')
    (held : stencil[position]? = some (.letter '&')) (levels : Nat) :
    StepsAlike words stencil stop inside levels position draft draft' '&' := by
  have entity := entity?_scene proper inert held stop
  simp only [StepsAlike, readNext, Char.reduceEq, reduceIte, decide_false, Bool.or_self,
    Bool.false_eq_true]
  rw [entity.1]
  cases found : (stencil.sketch stop).entity? position with
  | none => exact sameStep_gather same held (proper.reached_succ held (by decide))
  | some reference =>
      have goes := (entity.2 reference found).reached
      exact ⟨rfl, goes.1, goes.2, Or.inl (same.writeEvents [.text reference.1])⟩

/-- Plain text runs on to the same place in both texts, and no slot stands in it. -/
theorem sameStep_run (proper : stencil.Proper) (inert : Inert words)
    (closed : stencil.Closed stop) (same : SameDraft words stencil draft draft')
    (before : position < stop) (reached : stencil.Reached position)
    (noDoor : ¬ stencil.IsDoor position) {c : Char}
    (held : stencil[position]? = some (.letter c)) (runs : runsOn c = true) :
    SameStep words stencil stop position draft draft'
      (stencil.drawn.pass runsOn stop position, draft.gather (stencil.drawn.between position
        (stencil.drawn.pass runsOn stop position)))
      ((filled words stencil).pass runsOn (place words stencil stop) (place words stencil position),
        draft'.gather ((filled words stencil).between (place words stencil position)
          ((filled words stencil).pass runsOn (place words stencil stop)
            (place words stencil position)))) := by
  have ahead : position + 1 ≤ stencil.drawn.pass runsOn stop position :=
    Source.le_pass_of before fun place later short =>
      ⟨c, (by omega : place = position) ▸ drawn_of_letter held, runs⟩
  have goes := proper.pass_runsOn inert reached.notSlot noDoor stop
  have bare : stencil.BareBetween position (stencil.drawn.pass runsOn stop position) :=
    fun place later short =>
      proper.bare_of_runsOn reached.notSlot noDoor place later (Nat.lt_succ_of_lt short)
  rw [goes, bare.between_filled (Nat.le_of_succ_le ahead)]
  exact ⟨rfl, ahead, closed.pass_drawn before.le ▸ reached_pass_runsOn stencil position,
    Or.inl (same.gather _)⟩

/-- What stands at a position is read alike, unless it is the parenthesis in front of a slot. -/
theorem readNext_scene (proper : stencil.Proper) (inert : Inert words)
    (closed : stencil.Closed stop) (reads : Inside inside)
    (alike : ReadsAlike words stencil inside) (same : SameDraft words stencil draft draft')
    (sound : draft.memory.Sound) (sound' : draft'.memory.Sound) (before : position < stop)
    (reached : stencil.Reached position) (noDoor : ¬ stencil.IsDoor position) {c : Char}
    (held : stencil[position]? = some (.letter c)) (levels : Nat) :
    StepsAlike words stencil stop inside levels position draft draft' c := by
  by_cases newline : c = '\n'
  · subst newline
    exact stepsAlike_break proper inert same held levels
  by_cases backslash : c = '\\'
  · subst backslash
    exact stepsAlike_backslash proper inert same held levels
  by_cases backtick : c = '\x60'
  · subst backtick
    exact stepsAlike_backtick proper inert closed same held levels
  by_cases mark : c = '*' ∨ c = '_'
  · exact stepsAlike_mark proper inert same before reached mark held levels
  by_cases bracket : c = '['
  · subst bracket
    exact stepsAlike_link proper inert closed reads alike same sound sound' held levels
  by_cases bang : c = '!'
  · subst bang
    exact stepsAlike_image proper inert closed same held levels
  by_cases ampersand : c = '&'
  · subst ampersand
    exact stepsAlike_ampersand proper inert same held levels
  have notAngle : c ≠ '<' := by
    rintro rfl
    exact proper.noAngle (List.mem_of_getElem? held)
  rw [not_or] at mark
  simp only [StepsAlike, readNext, newline, backslash, backtick, mark, bracket, bang, notAngle,
    ampersand, reduceIte, decide_false, Bool.or_self, Bool.false_eq_true]
  split
  · exact sameStep_gather same held (reached_of_not_isSlot noDoor reached.notSlot)
  · next goesOn =>
      have runs : runsOn c = true := by
        rw [runsOn, Bool.eq_false_iff.mpr goesOn]
        rfl
      exact sameStep_run proper inert closed same before reached noDoor held runs

theorem readFrom_of_le {scene : Scene} {skip : Skipper} {fuel : Nat}
    (beyond : scene.stop ≤ position) :
    scene.readFrom skip inside fuel position draft = draft := by
  cases fuel with
  | zero => rfl
  | succ fuel => rw [readFrom, if_pos beyond]

/-- The text in front of a slot and behind it is read without a link, so no destination begins with
the slot. -/
theorem readFrom_parenthesis {scene : Scene} {skip : Skipper}
    (forward : Skipper.Forward scene.stop skip) (reads : Inside inside)
    (sound : draft.memory.Sound) (before : position < scene.stop)
    (held : scene.source[position]? = some '(') (fuel : Nat) :
    ∃ anchors, (scene.readFrom skip inside (fuel + 1) position draft).anchors =
        draft.anchors ++ anchors ∧
      ∀ destination ∈ destinations anchors, position + 1 < destination := by
  have ahead : position + 1 ≤ scene.source.pass runsOn scene.stop position :=
    Source.le_pass_of before fun place later short =>
      ⟨'(', (by omega : place = position) ▸ held, by decide⟩
  rw [readFrom, if_neg (Nat.not_le.mpr before), held]
  have rest := @readFrom_anchored scene skip inside (scene.source.pass runsOn scene.stop position)
    (draft.gather (scene.source.between position (scene.source.pass runsOn scene.stop position)))
    forward reads fuel sound
  rcases rest with ⟨_, anchors, added, anchored⟩
  refine ⟨anchors, added, fun destination member => ?_⟩
  exact Nat.lt_of_le_of_lt ahead (anchored.destinations_bounds destination member).1

theorem Missed.later {first first' later later' : List Anchor} {next : Nat}
    (inert : Inert words) (missed : Missed words stencil next stop later later')
    (reached : stencil.Reached next) (ordered : position ≤ next)
    (bounds : ∀ destination ∈ destinations first, destination ≤ next)
    (bounds' : ∀ destination ∈ destinations first', destination ≤ place words stencil next) :
    Missed words stencil position stop (first ++ later) (first' ++ later') := by
  have mono : StrictMono (place words stencil) := place_strictMono inert
  rcases missed with ⟨slot, isSlot, ahead, before, absent, absent'⟩
  have further : next < slot :=
    Nat.lt_of_le_of_ne ahead fun same => reached.notSlot (same ▸ isSlot)
  refine ⟨slot, isSlot, ordered.trans ahead, before, ?_, ?_⟩
  · rw [destinations_append, List.mem_append]
    exact not_or.mpr ⟨fun member => absurd (bounds slot member) (Nat.not_le.mpr further), absent⟩
  · rw [destinations_append, List.mem_append]
    exact not_or.mpr
      ⟨fun member => absurd (bounds' _ member) (Nat.not_le.mpr (mono further)), absent'⟩

theorem Missed.earlier {first first' later later' : List Anchor} {next : Nat}
    (inert : Inert words)
    (missed : Missed words stencil position (min next stop) first first')
    (bounds : ∀ destination ∈ destinations later, next < destination)
    (bounds' : ∀ destination ∈ destinations later', place words stencil next < destination) :
    Missed words stencil position stop (first ++ later) (first' ++ later') := by
  have mono : StrictMono (place words stencil) := place_strictMono inert
  rcases missed with ⟨slot, isSlot, ahead, before, absent, absent'⟩
  have short : slot < next := by omega
  refine ⟨slot, isSlot, ahead, by omega, ?_, ?_⟩
  · rw [destinations_append, List.mem_append]
    exact not_or.mpr
      ⟨absent, fun member => absurd (bounds slot member) (Nat.not_lt.mpr short.le)⟩
  · rw [destinations_append, List.mem_append]
    exact not_or.mpr
      ⟨absent', fun member => absurd (bounds' _ member) (Nat.not_lt.mpr (mono short).le)⟩

/-- Two stretches are read one after the other: a slot that is missed in one of them is missed in
both together. -/
theorem SameRun.append {start next : Nat} {middle middle' result result' : Draft}
    (inert : Inert words) (reached : stencil.Reached next) (ordered : start ≤ next)
    (run : SameRun words stencil start (min next stop) draft draft' middle middle')
    (wrote : ∃ first, middle.anchors = draft.anchors ++ first ∧
      ∀ destination ∈ destinations first, destination ≤ next)
    (wrote' : ∃ first, middle'.anchors = draft'.anchors ++ first ∧
      ∀ destination ∈ destinations first, destination ≤ place words stencil next)
    (added : ∃ later, result.anchors = middle.anchors ++ later ∧
      ∀ destination ∈ destinations later, next < destination)
    (added' : ∃ later, result'.anchors = middle'.anchors ++ later ∧
      ∀ destination ∈ destinations later, place words stencil next < destination)
    (rest : SameDraft words stencil middle middle' →
      SameRun words stencil next stop middle middle' result result') :
    SameRun words stencil start stop draft draft' result result' := by
  rcases run with same | ⟨first, first', wrote, wrote', missed⟩
  · rcases rest same with same | ⟨later, later', added, added', missed⟩
    · exact Or.inl same
    · rcases wrote with ⟨first, wrote, bounds⟩
      rcases wrote' with ⟨first', wrote', bounds'⟩
      refine Or.inr ⟨first ++ later, first' ++ later', ?_, ?_,
        missed.later inert reached ordered bounds bounds'⟩
      · rw [added, wrote, List.append_assoc]
      · rw [added', wrote', List.append_assoc]
  · rcases added with ⟨later, added, bounds⟩
    rcases added' with ⟨later', added', bounds'⟩
    refine Or.inr ⟨first ++ later, first' ++ later', ?_, ?_, missed.earlier inert bounds bounds'⟩
    · rw [added, wrote, List.append_assoc]
    · rw [added', wrote', List.append_assoc]

theorem readFrom_destinations {scene : Scene} {skip : Skipper}
    (forward : Skipper.Forward scene.stop skip) (reads : Inside inside)
    (sound : draft.memory.Sound) (fuel position : Nat) :
    ∃ later, (scene.readFrom skip inside fuel position draft).anchors = draft.anchors ++ later ∧
      ∀ destination ∈ destinations later, position < destination := by
  rcases readFrom_anchored forward reads fuel sound with ⟨_, later, added, anchored⟩
  exact ⟨later, added, fun destination member =>
    (anchored.destinations_bounds destination member).1⟩

/-- Behind the parenthesis in front of a slot, the slot is read as text in both texts. -/
theorem readFrom_door (proper : stencil.Proper) (inert : Inert words)
    (closed : stencil.Closed stop) (reads : Inside inside) (sound : draft.memory.Sound)
    (sound' : draft'.memory.Sound) (isDoor : stencil.IsDoor position) (before : position < stop)
    (levels fuel fuel' : Nat) :
    SameRun words stencil position stop draft draft'
      ((stencil.sketch stop).readFrom ((stencil.sketch stop).skip levels) inside (fuel + 1) position
        draft)
      ((scene words stencil stop).readFrom ((scene words stencil stop).skip levels) inside
        (fuel' + 1) (place words stencil position) draft') := by
  have parenthesis := proper.parenthesis_of_isDoor isDoor
  have next : place words stencil (position + 1) = place words stencil position + 1 :=
    place_succ_of_letter parenthesis
  have bound := isDoor.exit_le closed before proper
  rcases readFrom_parenthesis (skip_forward (stencil.sketch stop) levels) reads sound before
    (drawn_of_letter parenthesis) fuel with ⟨anchors, added, later⟩
  rcases readFrom_parenthesis (skip_forward (scene words stencil stop) levels) reads sound'
    (place_strictMono inert before) (filled_of_letter parenthesis) fuel' with
    ⟨anchors', added', later'⟩
  refine Or.inr ⟨anchors, anchors', added, added', position + 1, isDoor, Nat.le_succ position,
    by omega, fun member => ?_, fun member => ?_⟩
  · exact absurd (later _ member) (Nat.lt_irrefl _)
  · exact absurd (next ▸ later' _ member) (Nat.lt_irrefl _)

/-- Reading on from a position and from its place. -/
theorem readFrom_scene (proper : stencil.Proper) (inert : Inert words)
    (closed : stencil.Closed stop) (reads : Inside inside)
    (alike : ReadsAlike words stencil inside) (same : SameDraft words stencil draft draft')
    (sound : draft.memory.Sound) (sound' : draft'.memory.Sound)
    (reached : stencil.Reached position) (levels : Nat) {fuel fuel' : Nat}
    (enough : stop - position ≤ fuel)
    (enough' : place words stencil stop - place words stencil position ≤ fuel') :
    SameRun words stencil position stop draft draft'
      ((stencil.sketch stop).readFrom ((stencil.sketch stop).skip levels) inside fuel position
        draft)
      ((scene words stencil stop).readFrom ((scene words stencil stop).skip levels) inside fuel'
        (place words stencil position) draft') := by
  have mono : StrictMono (place words stencil) := place_strictMono inert
  have forward := skip_forward (stencil.sketch stop) levels
  have forward' := skip_forward (scene words stencil stop) levels
  induction fuel generalizing position draft draft' fuel' with
  | zero =>
      have beyond : stop ≤ position := by omega
      rw [readFrom_of_le beyond, readFrom_of_le (mono.monotone beyond)]
      exact Or.inl same
  | succ fuel inductionHypothesis =>
      rcases Nat.lt_or_ge position stop with before | beyond
      · have placed := mono before
        obtain ⟨fuel', rfl⟩ : ∃ less, fuel' = less + 1 := ⟨fuel' - 1, by omega⟩
        by_cases isDoor : stencil.IsDoor position
        · exact readFrom_door proper inert closed reads sound sound' isDoor before levels fuel fuel'
        · obtain ⟨c, held⟩ := reached.exists_letter (Nat.lt_of_lt_of_le before closed.le_length)
          have shown := drawn_of_letter held
          have shown' : (filled words stencil)[place words stencil position]? = some c :=
            filled_of_letter held
          have step := readNext_scene proper inert closed reads alike same sound sound' before
            reached isDoor held levels
          have advance := readNext_advance forward reads shown sound
          have advance' := readNext_advance forward' reads shown' sound'
          rw [StepsAlike] at step
          rw [readFrom, readFrom, if_neg (Nat.not_le.mpr before), if_neg (Nat.not_le.mpr placed),
            shown, shown']
          dsimp only
          revert step advance advance'
          generalize (stencil.sketch stop).readNext _ inside position c draft = result
          generalize (scene words stencil stop).readNext _ inside (place words stencil position) c
            draft' = result'
          rcases result with ⟨next, middle⟩
          rcases result' with ⟨next', middle'⟩
          rintro ⟨goes, ahead, goesOn, run⟩ advance advance'
          obtain rfl : next' = place words stencil next := goes
          have ahead : position < next := ahead
          have further := mono ahead
          refine run.append inert goesOn ahead.le advance.destinations_le advance'.destinations_le
            (readFrom_destinations forward reads advance.sound fuel next)
            (readFrom_destinations forward' reads advance'.sound fuel' _) fun same => ?_
          exact inductionHypothesis same advance.sound advance'.sound goesOn
            (show stop - next ≤ fuel by omega)
            (show place words stencil stop - place words stencil next ≤ fuel' by omega)
      · rw [readFrom_of_le beyond, readFrom_of_le (mono.monotone beyond)]
        exact Or.inl same

end Read

/-! ## Whole runs of inline text -/

/-- However deep labels are looked into, the filled text is read as the outline. -/
theorem pieces_scene (proper : stencil.Proper) (inert : Inert words) (levels : Nat) :
    ReadsAlike words stencil (pieces levels) := by
  induction levels with
  | zero =>
      intro stop position memory memory' closed reached ordered follows _ _
      by_cases bare : stencil.BareBetween position stop
      · refine Or.inl ⟨?_, follows⟩
        rw [pieces, pieces, bare.between_filled ordered]
        rfl
      · simp only [BareBetween, not_forall, not_not] at bare
        rcases bare with ⟨slot, ahead, before, isSlot⟩
        exact Or.inr ⟨slot, isSlot, ahead, before, List.not_mem_nil, List.not_mem_nil⟩
  | succ levels alike =>
      intro stop position memory memory' closed reached _ follows sound sound'
      have run := readFrom_scene proper inert closed (pieces_inside levels) alike
        (show SameDraft words stencil ⟨[], [], memory⟩ ⟨[], [], memory'⟩ from ⟨rfl, rfl, follows⟩)
        sound sound' reached (levels + 1) (Nat.le_refl _) (Nat.le_refl _)
      rw [pieces, pieces]
      rcases run with same | ⟨anchors, anchors', wrote, wrote', missed⟩
      · refine Or.inl ⟨?_, same.follows⟩
        dsimp only
        rw [same.flush.pieces, List.map_reverse]
      · refine Or.inr ?_
        have read := (Draft.anchors_flush _).trans wrote
        have read' := (Draft.anchors_flush _).trans wrote'
        rw [Draft.anchors] at read read'
        dsimp only
        rw [read, read']
        exact missed

/-- Where the destinations of the links in a run of inline text begin. -/
def aimed (tokens : List Token) : List Nat :=
  destinations (tokens.filterMap (·.event.anchor?))

/-- A filled text is read as its outline, if each slot is the destination of a link in one of the
two. -/
theorem inlineTokens_text (proper : stencil.Proper) (inert : Inert words)
    (covered : ∀ slot, stencil.IsSlot slot → slot ∈ aimed (inlineTokens [] stencil.outline) ∨
      place words stencil slot ∈ aimed (inlineTokens [] (text words stencil))) :
    inlineTokens [] (text words stencil) =
      (inlineTokens [] stencil.outline).map (Token.exchange (fillAnchor words stencil)) := by
  have run := pieces_scene proper inert deepestLabel stencil.length 0 _ _ (Or.inl rfl)
    proper.reached_zero (Nat.zero_le _) (Follows.blank words stencil) (Memory.Sound.blank _)
    (Memory.Sound.blank _)
  rw [place_zero] at run
  rw [inlineTokens, inlineTokens, length_outline, ← place_length, ← leveled_exchange,
    ← settle_exchange]
  rcases run with ⟨same, _⟩ | missed
  · exact congrArg (fun pieces => leveled 0 (settle pieces)) same
  · rcases missed with ⟨slot, isSlot, _, _, absent, absent'⟩
    have read (content : Text) : aimed (inlineTokens [] content) = destinations
        ((pieces deepestLabel { source := content.toArray, stop := content.length, labels := [] }
          0 (Memory.blank content.length)).1.flatMap Piece.anchors) := by
      rw [aimed, inlineTokens, anchors_leveled, anchors_settle]
    have found := covered slot isSlot
    rw [read, read, length_outline, ← place_length] at found
    exact absurd found (not_or.mpr ⟨absent, absent'⟩)

end Stencil

end Markup
end Crosslink

import Crosslink.Markup.Inline.Span
import Crosslink.Proofs.Markup.Inline.Autolink

namespace Crosslink
namespace Markup

/-!
Where links and their destinations stand in a run of inline text.  A link begins with the bracket
of its label or of its address, and each destination is read from a stretch of its own.  The
links inside a label come before the destination behind it, and what is read later lies further
on, so no two of these stretches overlap.
-/

/-! ## Stretches -/

/-- A stretch from which an href was read: it writes the href, or the mail address that the href
leads to. -/
def Gives (raw href : Text) : Prop :=
  Writes raw href ∨ ∃ address, Mails raw href address

/-- An href with the place where its stretch begins. -/
abbrev Aim := Text × Nat

/-- Hrefs that were read from stretches between two positions.  The stretch of a link lies behind
those of the links in its label. -/
inductive Laid (source : Source) : Nat → Nat → List Aim → Prop where
  | nil (low high : Nat) : Laid source low high []
  | link {low middle start stop high : Nat} {aims : List Aim} {href : Text}
      (label : Laid source low middle aims) (behind : middle ≤ start) (further : low < start)
      (ordered : start ≤ stop) (within : stop ≤ high)
      (gives : Gives (source.between start stop) href) :
      Laid source low high ((href, start) :: aims)
  | append {low middle high : Nat} {first rest : List Aim} (before : Laid source low middle first)
      (after : Laid source middle high rest) (ahead : low ≤ middle) (within : middle ≤ high) :
      Laid source low high (first ++ rest)

theorem Laid.mono {source : Source} {low high low' high' : Nat} {aims : List Aim}
    (laid : Laid source low high aims) (lower : low' ≤ low) (higher : high ≤ high') :
    Laid source low' high' aims := by
  induction laid generalizing low' high' with
  | nil => exact .nil low' high'
  | link _ behind further ordered within gives label =>
      exact .link (label lower (Nat.le_refl _)) behind (Nat.lt_of_le_of_lt lower further) ordered
        (within.trans higher) gives
  | append _ _ ahead within before after =>
      exact .append (before lower (Nat.le_refl _)) (after (Nat.le_refl _) higher)
        (lower.trans ahead) (within.trans higher)

/-- Each destination lies behind where reading began and not behind where it ended. -/
theorem Laid.bounds {source : Source} {low high : Nat} {aims : List Aim}
    (laid : Laid source low high aims) : ∀ aim ∈ aims, low < aim.2 ∧ aim.2 ≤ high := by
  induction laid with
  | nil => exact fun _ member => absurd member List.not_mem_nil
  | link _ behind further ordered within _ label =>
      intro aim member
      rcases List.mem_cons.mp member with rfl | inLabel
      · exact ⟨further, ordered.trans within⟩
      · have bounds := label aim inLabel
        exact ⟨bounds.1, by omega⟩
  | append _ _ ahead within before after =>
      intro aim member
      rcases List.mem_append.mp member with early | late
      · have bounds := before aim early
        exact ⟨bounds.1, bounds.2.trans within⟩
      · have bounds := after aim late
        exact ⟨Nat.lt_of_le_of_lt ahead bounds.1, bounds.2⟩

/-- A stretch with the href that was read from it. -/
structure Stretch where
  href : Text
  start : Nat
  stop : Nat

namespace Stretch

def aim (stretch : Stretch) : Aim :=
  (stretch.href, stretch.start)

/-- The stretch lies between two positions, and its href was read from it. -/
structure Fits (source : Source) (low high : Nat) (stretch : Stretch) : Prop where
  low_le : low ≤ stretch.start
  ordered : stretch.start ≤ stretch.stop
  le_high : stretch.stop ≤ high
  gives : Gives (source.between stretch.start stretch.stop) stretch.href

theorem Fits.mono {source : Source} {low high low' high' : Nat} {stretch : Stretch}
    (fits : stretch.Fits source low high) (lower : low' ≤ low) (higher : high ≤ high') :
    stretch.Fits source low' high' :=
  ⟨lower.trans fits.low_le, fits.ordered, fits.le_high.trans higher, fits.gives⟩

/-- One of two stretches ends before the other begins. -/
def Apart (first second : Stretch) : Prop :=
  first.stop ≤ second.start ∨ second.stop ≤ first.start

end Stretch

/-- Hrefs that were read between two positions were read from stretches that lie apart. -/
theorem Laid.stretches {source : Source} {low high : Nat} {aims : List Aim}
    (laid : Laid source low high aims) :
    ∃ stretches : List Stretch, stretches.map Stretch.aim = aims ∧
      (∀ stretch ∈ stretches, stretch.Fits source low high) ∧
      stretches.Pairwise Stretch.Apart := by
  induction laid with
  | nil low high => exact ⟨[], rfl, fun _ member => absurd member List.not_mem_nil, .nil⟩
  | @link low middle start stop high aims href _ behind further ordered within gives label =>
      rcases label with ⟨stretches, same, fit, apart⟩
      refine ⟨⟨href, start, stop⟩ :: stretches, congrArg _ same, ?_, ?_⟩
      · intro stretch member
        rcases List.mem_cons.mp member with rfl | inLabel
        · exact ⟨further.le, ordered, within, gives⟩
        · exact (fit stretch inLabel).mono (Nat.le_refl _) (by omega)
      · refine List.pairwise_cons.mpr ⟨fun stretch member => Or.inr ?_, apart⟩
        exact (fit stretch member).le_high.trans behind
  | @append low middle high _ _ _ _ ahead within before after =>
      rcases before with ⟨first, same, fit, apart⟩
      rcases after with ⟨rest, sameRest, fitRest, apartRest⟩
      refine ⟨first ++ rest, by rw [List.map_append, same, sameRest], ?_, ?_⟩
      · intro stretch member
        rcases List.mem_append.mp member with early | late
        · exact (fit stretch early).mono (Nat.le_refl _) within
        · exact (fitRest stretch late).mono ahead (Nat.le_refl _)
      · refine List.pairwise_append.mpr ⟨apart, apartRest, fun early isEarly late isLate => ?_⟩
        exact Or.inl ((fit early isEarly).le_high.trans (fitRest late isLate).low_le)

/-! ## Events and pieces -/

/-- A link begins with the bracket of its label or of its address. -/
def Anchor.Opened (source : Source) (anchor : Anchor) : Prop :=
  source[anchor.position]? = some '[' ∨ source[anchor.position]? = some '<'

/-- The href of a link with the place of its destination; a reference has none. -/
def Anchor.aim? (anchor : Anchor) : Option Aim :=
  anchor.target?.map fun href => (href, anchor.destination)

/-- Links that were read between two positions. -/
structure Anchored (source : Source) (low high : Nat) (anchors : List Anchor) : Prop where
  opened : ∀ anchor ∈ anchors, anchor.Opened source
  laid : Laid source low high (anchors.filterMap Anchor.aim?)

namespace Anchored

variable {source : Source} {low middle high : Nat}

theorem nil (low high : Nat) : Anchored source low high [] where
  opened _ member := absurd member List.not_mem_nil
  laid := .nil low high

theorem mono {anchors : List Anchor} (anchored : Anchored source low high anchors)
    {low' high' : Nat} (lower : low' ≤ low) (higher : high ≤ high') :
    Anchored source low' high' anchors :=
  ⟨anchored.opened, anchored.laid.mono lower higher⟩

theorem append {first rest : List Anchor} (before : Anchored source low middle first)
    (after : Anchored source middle high rest) (ahead : low ≤ middle) (within : middle ≤ high) :
    Anchored source low high (first ++ rest) where
  opened anchor member :=
    (List.mem_append.mp member).elim (before.opened anchor) (after.opened anchor)
  laid := by
    rw [List.filterMap_append]
    exact .append before.laid after.laid ahead within

/-- A link and the links in its label. -/
theorem cons {anchors : List Anchor} {anchor : Anchor} (opened : anchor.Opened source)
    (label : Anchored source low middle anchors) (within : middle ≤ high)
    (leads : ∀ href start, anchor.aim? = some (href, start) → ∃ stop,
      middle ≤ start ∧ low < start ∧ start ≤ stop ∧ stop ≤ high ∧
        Gives (source.between start stop) href) :
    Anchored source low high (anchor :: anchors) where
  opened other member := by
    rcases List.mem_cons.mp member with rfl | inLabel
    · exact opened
    · exact label.opened other inLabel
  laid := by
    rw [List.filterMap_cons]
    cases aim : anchor.aim? with
    | none => exact label.laid.mono (Nat.le_refl low) within
    | some found =>
        rcases leads found.1 found.2 aim with ⟨stop, behind, further, ordered, ends, gives⟩
        exact .link label.laid behind further ordered ends gives

end Anchored

def Event.anchor? : Event → Option Anchor
  | .linkOpen anchor => some anchor
  | _ => none

/-- The links that some events open. -/
def anchors (events : List Event) : List Anchor :=
  events.filterMap Event.anchor?

def Piece.anchors : Piece → List Anchor
  | .settled events => Markup.anchors events
  | .mark _ _ _ _ => []

/-- What is written for an emphasis mark opens no link if none of the events opens one that the
marks may be written as. -/
theorem anchor?_getD_of_quiet {paired : List (Option Event)} (character : Char)
    (quiet : ∀ event, some event ∈ paired → event.anchor? = none) :
    ((paired.head?.join).getD (.text [character])).anchor? = none := by
  match paired with
  | [] => rfl
  | none :: _ => rfl
  | some event :: _ => exact quiet event List.mem_cons_self

theorem anchors_eventsOf (pieces : List Piece) (paired : List (Option Event))
    (quiet : ∀ event, some event ∈ paired → event.anchor? = none) :
    anchors (eventsOf pieces paired) = pieces.flatMap Piece.anchors := by
  induction pieces generalizing paired with
  | nil => rfl
  | cons piece rest inductionHypothesis =>
      cases piece with
      | settled events =>
          rw [eventsOf, anchors, List.filterMap_append, List.flatMap_cons]
          exact congrArg _ (inductionHypothesis paired quiet)
      | mark character length mayOpen mayClose =>
          have own := anchor?_getD_of_quiet character quiet
          have later := inductionHypothesis paired.tail fun event member =>
            quiet event (List.mem_of_mem_tail member)
          rw [eventsOf, anchors, List.filterMap_cons_none own, List.flatMap_cons]
          exact later

/-- Paired marks are written as the ends of emphasis. -/
theorem anchor?_of_mem_outcomes {marks : List Mark} {event : Event}
    (member : some event ∈ outcomes marks) : event.anchor? = none := by
  rcases List.mem_map.mp member with ⟨⟨mark, isCloser⟩, _, made⟩
  dsimp only at made
  split at made
  · cases made
    rfl
  · split at made
    · cases made
      rfl
    · cases made

/-- Pairing emphasis marks leaves the links alone. -/
@[simp] theorem anchors_settle (pieces : List Piece) :
    anchors (settle pieces) = pieces.flatMap Piece.anchors :=
  anchors_eventsOf pieces _ fun _ member => anchor?_of_mem_outcomes member

/-- A link comes before those in its label. -/
theorem anchors_link (anchor : Anchor) (pieces : List Piece) :
    anchors (Event.linkOpen anchor :: settle pieces ++ [Event.linkClose]) =
      anchor :: pieces.flatMap Piece.anchors := by
  have closed : anchors (settle pieces ++ [Event.linkClose]) = pieces.flatMap Piece.anchors := by
    rw [← anchors_settle, anchors, List.filterMap_append]
    exact List.append_nil _
  rw [List.cons_append, anchors, List.filterMap_cons]
  exact congrArg _ closed

/-- Levels leave the links alone, too. -/
@[simp] theorem anchors_leveled (level : Nat) (events : List Event) :
    (leveled level events).filterMap (·.event.anchor?) = anchors events := by
  induction events generalizing level with
  | nil => rfl
  | cons event rest inductionHypothesis =>
      rw [leveled, anchors, List.filterMap_cons, List.filterMap_cons]
      dsimp only
      rw [inductionHypothesis, anchors]

/-! ## What a draft holds -/

namespace Draft

/-- The links written so far. -/
def anchors (draft : Draft) : List Anchor :=
  draft.pieces.reverse.flatMap Piece.anchors

@[simp] theorem anchors_flush (draft : Draft) : draft.flush.anchors = draft.anchors := by
  unfold flush
  split
  · rfl
  · rw [anchors, List.reverse_cons, List.flatMap_append]
    exact List.append_nil _

@[simp] theorem memory_flush (draft : Draft) : draft.flush.memory = draft.memory := by
  unfold flush
  split <;> rfl

@[simp] theorem anchors_write (draft : Draft) (piece : Piece) :
    (draft.write piece).anchors = draft.anchors ++ piece.anchors := by
  rw [← anchors_flush draft]
  simp [write, anchors]

@[simp] theorem memory_write (draft : Draft) (piece : Piece) :
    (draft.write piece).memory = draft.memory :=
  memory_flush draft

@[simp] theorem anchors_writeEvents (draft : Draft) (events : List Event) :
    (draft.writeEvents events).anchors = draft.anchors ++ Markup.anchors events :=
  anchors_write draft _

@[simp] theorem memory_writeEvents (draft : Draft) (events : List Event) :
    (draft.writeEvents events).memory = draft.memory :=
  memory_write draft _

@[simp] theorem anchors_breakLine (draft : Draft) : draft.breakLine.anchors = draft.anchors := by
  unfold breakLine
  split
  all_goals
    rw [anchors_writeEvents]
    exact List.append_nil _

@[simp] theorem memory_breakLine (draft : Draft) : draft.breakLine.memory = draft.memory := by
  unfold breakLine
  split
  all_goals exact memory_writeEvents _ _

end Draft

/-- What a reader does that goes from a position to another one: what it writes lies between them
and inside the scene, and what it remembers stays sound. -/
structure Advance (scene : Scene) (position : Nat) (draft : Draft) (result : Nat × Draft) :
    Prop where
  ahead : position ≤ result.1
  sound : result.2.memory.Sound
  wrote : ∃ anchors, result.2.anchors = draft.anchors ++ anchors ∧
    Anchored scene.source position (min result.1 scene.stop) anchors

namespace Advance

variable {scene : Scene} {position next : Nat} {draft : Draft} {memory : Memory}

/-- Nothing is written but events that open no link. -/
theorem quiet {result : Nat × Draft} (ahead : position ≤ result.1)
    (sound : result.2.memory.Sound) (same : result.2.anchors = draft.anchors) :
    Advance scene position draft result :=
  ⟨ahead, sound, [], same.trans (List.append_nil _).symm, .nil _ _⟩

theorem gather (ahead : position ≤ next) (sound : memory.Sound) (text : Text) :
    Advance scene position draft (next, { draft.gather text with memory }) :=
  quiet ahead sound rfl

theorem writeEvents (ahead : position ≤ next) (sound : memory.Sound) {events : List Event}
    (opensNone : anchors events = []) :
    Advance scene position draft (next, { draft with memory }.writeEvents events) := by
  refine quiet ahead (by rwa [Draft.memory_writeEvents]) ?_
  rw [Draft.anchors_writeEvents, opensNone]
  exact List.append_nil _

theorem marks (ahead : position ≤ next) (sound : draft.memory.Sound) {mark : Piece}
    (opensNone : mark.anchors = []) (length : Nat) :
    Advance scene position draft (next, (List.replicate length mark).foldl Draft.write draft) := by
  induction length generalizing draft with
  | zero => exact quiet ahead sound rfl
  | succ length inductionHypothesis =>
      have written := @inductionHypothesis (draft.write mark) (by rwa [Draft.memory_write])
      have same : (draft.write mark).anchors = draft.anchors := by
        rw [Draft.anchors_write, opensNone, List.append_nil]
      rcases written.wrote with ⟨anchors, added, anchored⟩
      rw [same] at added
      exact ⟨written.ahead, written.sound, anchors, added, anchored⟩

end Advance

/-! ## Reading -/

/-- A way of reading the pieces of a scene from a position on that keeps its memory sound and
finds links in the scene alone. -/
def Inside (inside : Scene → Nat → Memory → List Piece × Memory) : Prop :=
  ∀ scene position memory, memory.Sound →
    (inside scene position memory).2.Sound ∧
      Anchored scene.source position scene.stop
        ((inside scene position memory).1.flatMap Piece.anchors)

namespace Scene

variable {scene : Scene} {skip : Skipper}
  {inside : Scene → Nat → Memory → List Piece × Memory} {position : Nat} {draft : Draft}

theorem readNext_link (forward : Skipper.Forward scene.stop skip) (reads : Inside inside)
    (sound : draft.memory.Sound) (held : scene.source[position]? = some '[') :
    Advance scene position draft (scene.readNext skip inside position '[' draft) := by
  have found := link?_lies forward position sound
  simp only [readNext, Char.reduceEq, reduceIte, decide_false, Bool.or_self, Bool.false_eq_true]
  split
  · exact .gather (Nat.le_succ position) found.1 _
  · next link isLink =>
      have lies := found.2 link isLink
      have label := reads { scene with stop := link.labelEnd } (position + 1) _ found.1
      refine ⟨(lies.label.trans lies.ends).le, by rw [Draft.memory_writeEvents]; exact label.1, ?_⟩
      refine ⟨_, Draft.anchors_writeEvents _ _, ?_⟩
      have inLabel := label.2.mono (Nat.le_succ position) (Nat.le_refl _)
      have within : link.labelEnd ≤ min link.stop scene.stop :=
        Nat.le_min.mpr ⟨lies.ends.le, lies.within.le⟩
      rw [anchors_link]
      refine .cons (.inl held) inLabel within fun href start aim => ?_
      rcases Option.map_eq_some_iff.mp aim with ⟨_, leads, made⟩
      rcases Option.map_eq_some_iff.mp leads with ⟨target, isTarget, rfl⟩
      dsimp only at made
      rw [isTarget] at made
      cases made
      rcases lies.target target.1 target.2 isTarget with ⟨last, behind, ordered, ended, _, writes⟩
      exact ⟨last, behind.le, lies.label.trans behind, ordered, by omega, Or.inl writes⟩

theorem readNext_angle (sound : draft.memory.Sound)
    (held : scene.source[position]? = some '<') :
    Advance scene position draft (scene.readNext skip inside position '<' draft) := by
  simp only [readNext, Char.reduceEq, reduceIte, decide_false, Bool.or_self, Bool.false_eq_true]
  split
  · next autolink isAutolink =>
      rcases autolink?_eq_some isAutolink with ⟨behind, ahead, inside, stop, gives⟩
      refine ⟨by dsimp only; omega, by rwa [Draft.memory_writeEvents], _,
        Draft.anchors_writeEvents _ _, ?_⟩
      rw [stop]
      have within : behind ≤ min (behind + 1) scene.stop :=
        Nat.le_min.mpr ⟨Nat.le_succ behind, inside.le⟩
      refine .cons (.inr held) (.nil position position)
        ((Nat.le_succ position).trans (ahead.trans within)) fun href start aim => ?_
      cases aim
      exact ⟨behind, Nat.le_succ position, Nat.lt_succ_self position, ahead, within, gives⟩
  · split
    · next stop isTag => exact .writeEvents (scene.le_of_rawTagEnd? isTag) sound rfl
    · exact .gather (Nat.le_succ position) sound _

/-- Whatever a construct is, reading it goes forward and finds links in it alone. -/
theorem readNext_advance (forward : Skipper.Forward scene.stop skip) (reads : Inside inside)
    {c : Char} (held : scene.source[position]? = some c) (sound : draft.memory.Sound) :
    Advance scene position draft (scene.readNext skip inside position c draft) := by
  by_cases bracket : c = '['
  · exact bracket ▸ readNext_link forward reads sound (bracket ▸ held)
  by_cases angle : c = '<'
  · exact angle ▸ readNext_angle sound (angle ▸ held)
  have plain : Advance scene position draft (position + 1, draft.gather [c]) :=
    .gather (Nat.le_succ position) sound _
  unfold readNext
  dsimp only
  rw [if_neg bracket, if_neg angle]
  -- The other constructs, in the order in which they are tried; none of them writes a link.
  split
  · exact .quiet (Nat.le_of_succ_le (scene.le_behindBreak position))
      (draft.memory_breakLine ▸ sound) draft.anchors_breakLine
  split
  · split
    · next next read => exact .writeEvents (scene.le_of_escape? read) sound rfl
    · next next read => exact .writeEvents (scene.le_of_escape? read) sound rfl
    · exact plain
  split
  · have kept := sound.congr (scene.ends_ticksAt position draft.memory)
    split
    · exact .writeEvents (scene.le_stop_ticksAt position draft.memory) kept rfl
    · exact .gather (scene.le_stop_ticksAt position draft.memory) kept _
  split
  · exact .marks (Nat.le_add_right _ _) sound rfl _
  split
  · have found := imageEnd?_forward forward position sound
    split
    · exact .gather (Nat.le_succ position) found.1 _
    · next stop isImage => exact .writeEvents (found.2 stop isImage) found.1 rfl
  split
  · split
    · next next read => exact .writeEvents (scene.le_of_entity? read) sound rfl
    · exact plain
  split
  · exact plain
  · exact .gather (Source.le_pass _ _) sound _

theorem readFrom_anchored (forward : Skipper.Forward scene.stop skip) (reads : Inside inside)
    (fuel : Nat) (sound : draft.memory.Sound) :
    (scene.readFrom skip inside fuel position draft).memory.Sound ∧
      ∃ anchors,
        (scene.readFrom skip inside fuel position draft).anchors = draft.anchors ++ anchors ∧
          Anchored scene.source position scene.stop anchors := by
  have still {position : Nat} {draft : Draft} (sound : draft.memory.Sound) :
      draft.memory.Sound ∧ ∃ anchors, draft.anchors = draft.anchors ++ anchors ∧
        Anchored scene.source position scene.stop anchors :=
    ⟨sound, [], (List.append_nil _).symm, .nil _ _⟩
  induction fuel generalizing position draft with
  | zero => exact still sound
  | succ fuel inductionHypothesis =>
      rw [readFrom]
      split
      · exact still sound
      · next before =>
          split
          · exact still sound
          · next c held =>
              have step := readNext_advance forward reads held sound
              generalize scene.readNext skip inside position c draft = result at step
              rcases step.wrote with ⟨first, wrote, anchored⟩
              rcases @inductionHypothesis result.1 result.2 step.sound with
                ⟨kept, rest, added, anchoredRest⟩
              refine ⟨kept, first ++ rest, ?_, ?_⟩
              · rw [added, wrote, List.append_assoc]
              · exact .append anchored (anchoredRest.mono (Nat.min_le_left _ _) (Nat.le_refl _))
                  (Nat.le_min.mpr ⟨step.ahead, Nat.le_of_not_le before⟩) (Nat.min_le_right _ _)

/-- However deep labels are looked into, links are found where they stand. -/
theorem pieces_inside (levels : Nat) : Inside (pieces levels) := by
  induction levels with
  | zero => exact fun scene position memory sound => ⟨sound, .nil _ _⟩
  | succ levels inductionHypothesis =>
      intro scene position memory sound
      have read := @readFrom_anchored scene _ _ position ⟨[], [], memory⟩
        (skip_forward scene (levels + 1)) inductionHypothesis (scene.stop - position) sound
      rcases read with ⟨kept, anchors, wrote, anchored⟩
      have same := (Draft.anchors_flush _).trans wrote
      rw [Draft.anchors] at same
      rw [pieces]
      exact ⟨kept, same ▸ anchored⟩

end Scene

/-- The links of a run of inline text were read where they stand. -/
theorem inlineTokens_anchored (labels : List Text) (content : Text) :
    Anchored content.toArray 0 content.length
      ((inlineTokens labels content).filterMap (·.event.anchor?)) := by
  have read := Scene.pieces_inside deepestLabel
    { source := content.toArray, stop := content.length, labels } 0 _
    (Memory.Sound.blank content.length)
  rw [inlineTokens, anchors_leveled, anchors_settle]
  exact read.2

/-- The href of the link that an event opens, with the place of its destination. -/
def Event.aim? (event : Event) : Option Aim :=
  event.anchor?.bind Anchor.aim?

@[simp] theorem Event.aim?_linkOpen (anchor : Anchor) :
    (Event.linkOpen anchor).aim? = anchor.target?.map fun href => (href, anchor.destination) :=
  rfl

/-- The hrefs of the links in a run of inline text were read from stretches of it that lie
apart. -/
theorem inlineTokens_laid (labels : List Text) (content : Text) :
    Laid content.toArray 0 content.length
      ((inlineTokens labels content).filterMap (·.event.aim?)) := by
  have laid := (inlineTokens_anchored labels content).laid
  rwa [List.filterMap_filterMap] at laid

section Token

variable {labels : List Text} {content : Text} {token : Token} {anchor : Anchor}

/-- A link begins where it was read, with the bracket of its label or of its address. -/
theorem opened_of_mem_inlineTokens (member : token ∈ inlineTokens labels content)
    (opens : token.event = .linkOpen anchor) :
    ∃ c, content[anchor.position]? = some c ∧ (c = '[' ∨ c = '<') := by
  have listed : anchor ∈ (inlineTokens labels content).filterMap (·.event.anchor?) :=
    List.mem_filterMap.mpr ⟨token, member, by rw [opens]; rfl⟩
  rcases (inlineTokens_anchored labels content).opened anchor listed with bracket | angle
  · exact ⟨_, (List.getElem?_toArray ..).symm.trans bracket, .inl rfl⟩
  · exact ⟨_, (List.getElem?_toArray ..).symm.trans angle, .inr rfl⟩

theorem exists_stretch_of_mem_inlineTokens (member : token ∈ inlineTokens labels content)
    (opens : token.event = .linkOpen anchor) {href : Text} (leads : anchor.target? = some href) :
    ∃ stretch : Stretch, stretch.aim = (href, anchor.destination) ∧
      stretch.Fits content.toArray 0 content.length := by
  have aim : token.event.aim? = some (href, anchor.destination) := by
    rw [opens, Event.aim?_linkOpen, leads]
    rfl
  have listed : (href, anchor.destination) ∈
      (inlineTokens labels content).filterMap (·.event.aim?) :=
    List.mem_filterMap.mpr ⟨token, member, aim⟩
  rcases (inlineTokens_laid labels content).stretches with ⟨stretches, same, fit, _⟩
  rw [← same] at listed
  rcases List.mem_map.mp listed with ⟨stretch, among, found⟩
  exact ⟨stretch, found, fit stretch among⟩

end Token

/-!
## Links exchanged in what has been read

Where a link leads and where it stands is known from its anchor alone.  The pairing of emphasis
marks, the levels of tokens and the texts of links do not look at anchors, so they are the same when
every anchor is exchanged for another one.
-/

variable {change : Anchor → Anchor}

def Event.exchange (change : Anchor → Anchor) : Event → Event
  | linkOpen anchor => linkOpen (change anchor)
  | event => event

namespace Event

@[simp] theorem opens_exchange (change : Anchor → Anchor) (event : Event) :
    (event.exchange change).opens = event.opens := by
  cases event <;> rfl

@[simp] theorem closes_exchange (change : Anchor → Anchor) (event : Event) :
    (event.exchange change).closes = event.closes := by
  cases event <;> rfl

theorem exchange_eq_linkClose_iff {event : Event} :
    event.exchange change = linkClose ↔ event = linkClose := by
  cases event <;> simp [exchange]

/-- An event that opens no link stays as it is. -/
theorem exchange_eq_self {event : Event} (opensNone : event.anchor? = none) :
    event.exchange change = event := by
  cases event with
  | linkOpen anchor => cases opensNone
  | _ => rfl

end Event

/-- Events that open no link stay as they are. -/
theorem map_exchange_eq_self {events : List Event} (opensNone : anchors events = []) :
    events.map (Event.exchange change) = events := by
  refine (List.map_congr_left fun event member => ?_).trans (List.map_id events)
  exact Event.exchange_eq_self (List.filterMap_eq_nil_iff.mp opensNone event member)

def Token.exchange (change : Anchor → Anchor) (token : Token) : Token :=
  { token with event := token.event.exchange change }

def Piece.exchange (change : Anchor → Anchor) : Piece → Piece
  | settled events => settled (events.map (Event.exchange change))
  | mark character length mayOpen mayClose => mark character length mayOpen mayClose

theorem Piece.exchange_eq_self {piece : Piece} (opensNone : piece.anchors = []) :
    piece.exchange change = piece := by
  cases piece with
  | settled events => exact congrArg Piece.settled (map_exchange_eq_self opensNone)
  | mark character length mayOpen mayClose => rfl

/-! ## Emphasis and levels -/

@[simp] theorem marksOf_exchange (pieces : List Piece) (place : Nat) :
    marksOf place (pieces.map (Piece.exchange change)) = marksOf place pieces := by
  induction pieces generalizing place with
  | nil => rfl
  | cons piece rest inductionHypothesis =>
      cases piece with
      | settled events => exact inductionHypothesis (place + 1)
      | mark character length mayOpen mayClose =>
          exact congrArg (_ :: ·) (inductionHypothesis (place + 1))

theorem eventsOf_exchange (pieces : List Piece) (paired : List (Option Event))
    (quiet : ∀ event, some event ∈ paired → event.anchor? = none) :
    eventsOf (pieces.map (Piece.exchange change)) paired =
      (eventsOf pieces paired).map (Event.exchange change) := by
  induction pieces generalizing paired with
  | nil => rfl
  | cons piece rest inductionHypothesis =>
      cases piece with
      | settled events =>
          rw [eventsOf, List.map_append, ← inductionHypothesis paired quiet]
          rfl
      | mark character length mayOpen mayClose =>
          have own := anchor?_getD_of_quiet character quiet
          have later := inductionHypothesis paired.tail fun event member =>
            quiet event (List.mem_of_mem_tail member)
          rw [eventsOf, List.map_cons, List.map_cons, Event.exchange_eq_self own, ← later]
          rfl

/-- Emphasis marks pair alike, whatever the links are. -/
theorem settle_exchange (pieces : List Piece) :
    settle (pieces.map (Piece.exchange change)) =
      (settle pieces).map (Event.exchange change) := by
  rw [settle, settle, marksOf_exchange]
  exact eventsOf_exchange pieces _ fun event member => anchor?_of_mem_outcomes member

theorem map_exchange_link (anchor : Anchor) (pieces : List Piece) :
    (Event.linkOpen anchor :: settle pieces ++ [Event.linkClose]).map (Event.exchange change) =
      Event.linkOpen (change anchor) :: settle (pieces.map (Piece.exchange change)) ++
        [Event.linkClose] := by
  rw [settle_exchange, List.map_append, List.map_cons]
  rfl

theorem leveled_exchange (level : Nat) (events : List Event) :
    leveled level (events.map (Event.exchange change)) =
      (leveled level events).map (Token.exchange change) := by
  induction events generalizing level with
  | nil => rfl
  | cons event rest inductionHypothesis =>
      rw [List.map_cons, leveled, leveled, Event.opens_exchange, Event.closes_exchange,
        List.map_cons, inductionHypothesis]
      rfl

theorem directText_exchange (level : Nat) (tokens : List Token) :
    directText level (tokens.map (Token.exchange change)) = directText level tokens := by
  induction tokens with
  | nil => rfl
  | cons token rest inductionHypothesis =>
      rcases token with ⟨own, event⟩
      rw [List.map_cons, directText, directText]
      simp only [Token.exchange, Event.exchange_eq_linkClose_iff, inductionHypothesis]
      cases event <;> rfl

/-- The text of a link does not depend on where links lead. -/
@[simp] theorem linkText_exchange (level : Nat) (behind : List Token) :
    linkText level (behind.map (Token.exchange change)) = linkText level behind :=
  directText_exchange (level + 1) behind

end Markup
end Crosslink

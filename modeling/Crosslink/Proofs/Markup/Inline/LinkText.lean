import Crosslink.Markup.Inline.Span
import Crosslink.Proofs.Markup.Inline.Pairing

namespace Crosslink
namespace Markup

/-!
The text of a link.  The tokens of inline text are nested, because every construct writes balanced
events and a link encloses what its label was read to.  Among nested tokens the text of a link is
read up to the end of that very link and no further: whatever opens inside it closes inside it,
another link too.  What the text is made of stands directly inside the link; the text of an
automatic link in a label stands one level deeper and is left out.
-/

/-! ## What is read is balanced -/

namespace Draft

/-- Everything that has been written is balanced. -/
def IsBalanced (draft : Draft) : Prop :=
  ∀ piece ∈ draft.pieces, piece.IsBalanced

variable {draft : Draft}

theorem IsBalanced.cons {pieces : List Piece} {piece : Piece} (own : piece.IsBalanced)
    (earlier : ∀ other ∈ pieces, other.IsBalanced) :
    ∀ other ∈ piece :: pieces, other.IsBalanced := by
  intro other member
  rcases List.mem_cons.mp member with rfl | before
  · exact own
  · exact earlier other before

theorem IsBalanced.flush (balanced : draft.IsBalanced) : draft.flush.IsBalanced := by
  have plain : Balanced [.text draft.pending.reverse] := .single rfl rfl
  unfold Draft.flush
  split
  · exact balanced
  · exact IsBalanced.cons plain balanced

theorem IsBalanced.write (balanced : draft.IsBalanced) {piece : Piece} (own : piece.IsBalanced) :
    (draft.write piece).IsBalanced :=
  IsBalanced.cons own balanced.flush

theorem IsBalanced.writeEvents (balanced : draft.IsBalanced) {events : List Event}
    (own : Balanced events) : (draft.writeEvents events).IsBalanced :=
  balanced.write own

theorem IsBalanced.breakLine (balanced : draft.IsBalanced) : draft.breakLine.IsBalanced := by
  have hard : Balanced [.object] := .single rfl rfl
  have soft : Balanced [.softBreak] := .single rfl rfl
  unfold Draft.breakLine
  split
  · refine IsBalanced.writeEvents ?_ hard
    exact balanced
  · refine IsBalanced.writeEvents ?_ soft
    exact balanced
  · exact balanced.writeEvents soft

theorem IsBalanced.marks (balanced : draft.IsBalanced) {mark : Piece} (own : mark.IsBalanced)
    (length : Nat) : ((List.replicate length mark).foldl Draft.write draft).IsBalanced := by
  induction length generalizing draft with
  | zero => exact balanced
  | succ length inductionHypothesis => exact inductionHypothesis (balanced.write own)

end Draft

/-- A way of reading the pieces of a scene that settles balanced events alone. -/
def ReadsBalanced (inside : Scene → Nat → Memory → List Piece × Memory) : Prop :=
  ∀ scene position memory, ∀ piece ∈ (inside scene position memory).1, piece.IsBalanced

namespace Scene

variable {scene : Scene} {skip : Skipper}
  {inside : Scene → Nat → Memory → List Piece × Memory} {position : Nat} {draft : Draft}

/-- Whatever a construct is, it is written as balanced events, if labels are read to such. -/
theorem readNext_balanced (reads : ReadsBalanced inside) (balanced : draft.IsBalanced) (c : Char) :
    (scene.readNext skip inside position c draft).2.IsBalanced := by
  have object : Balanced [.object] := .single rfl rfl
  have text (content : Text) : Balanced [.text content] := .single rfl rfl
  unfold readNext
  dsimp only
  -- The constructs in the order in which they are tried.
  split
  · exact balanced.breakLine
  split
  · split
    · exact balanced.writeEvents (text _)
    · exact balanced.writeEvents object
    · exact balanced
  split
  · split
    · refine Draft.IsBalanced.writeEvents ?_ object
      exact balanced
    · exact balanced
  split
  · exact balanced.marks (show Piece.IsBalanced (.mark _ _ _ _) from trivial) _
  split
  · split
    · exact balanced
    · refine Draft.IsBalanced.writeEvents ?_ (.enclose rfl (balanced_settle (reads _ _ _)))
      exact balanced
  split
  · split
    · exact balanced
    · refine Draft.IsBalanced.writeEvents ?_ object
      exact balanced
  split
  · split
    · exact balanced.writeEvents (.enclose rfl (text _))
    · split
      · exact balanced.writeEvents object
      · exact balanced
  split
  · split
    · exact balanced.writeEvents (text _)
    · exact balanced
  split
  · exact balanced
  · exact balanced

theorem readFrom_balanced (reads : ReadsBalanced inside) (balanced : draft.IsBalanced)
    (fuel : Nat) : (scene.readFrom skip inside fuel position draft).IsBalanced := by
  induction fuel generalizing position draft with
  | zero => exact balanced
  | succ fuel inductionHypothesis =>
      rw [readFrom]
      split
      · exact balanced
      · split
        · exact balanced
        · next c _ => exact inductionHypothesis (readNext_balanced reads balanced c)

/-- However deep labels are looked into, the pieces of a scene are balanced. -/
theorem pieces_balanced (levels : Nat) : ReadsBalanced (pieces levels) := by
  induction levels with
  | zero =>
      intro scene position memory piece member
      cases List.mem_singleton.mp member
      exact .single rfl rfl
  | succ levels inductionHypothesis =>
      intro scene position memory piece member
      have none : Draft.IsBalanced { pieces := [], pending := [], memory } :=
        fun _ impossible => absurd impossible List.not_mem_nil
      have read := @readFrom_balanced scene (skip scene (levels + 1)) (pieces levels) position _
        inductionHypothesis none (scene.stop - position)
      rw [pieces] at member
      exact read.flush piece (List.mem_reverse.mp member)

end Scene

theorem nested_inlineTokens (labels : List Text) (content : Text) :
    Nested 0 (inlineTokens labels content) :=
  nested_leveled (balanced_settle (Scene.pieces_balanced deepestLabel _ _ _)) 0

/-! ## The text of a link -/

def Event.wording : Event → Text
  | .text content => content
  | .softBreak => ['\n']
  | _ => []

/-- The text at a level is read on behind tokens that stand at the level or deeper: those at the
level say something, and those that stand deeper do not. -/
theorem directText_append {level : Nat} {inside : List Token}
    (deep : ∀ token ∈ inside, level ≤ token.level) (rest : List Token) :
    directText level (inside ++ rest) =
      (inside.filter (·.level = level)).flatMap (·.event.wording) ++ directText level rest := by
  induction inside with
  | nil => rfl
  | cons token later inductionHypothesis =>
      have further := inductionHypothesis fun other member =>
        deep other (List.mem_cons_of_mem token member)
      have own := deep token List.mem_cons_self
      have onward : ¬ ((token.event = .linkClose && token.level + 1 = level) = true) := by
        rw [Bool.and_eq_true, decide_eq_true_eq, decide_eq_true_eq]
        rintro ⟨_, shallower⟩
        omega
      rw [List.cons_append, directText, if_neg onward]
      split
      · next same =>
          rw [List.filter_cons, if_pos (decide_eq_true same), List.flatMap_cons, List.append_assoc,
            ← further]
          cases token.event <;> rfl
      · next deeper =>
          rw [List.filter_cons, if_neg (by rwa [decide_eq_true_eq]), further]

/-- A link with nested tokens inside says what stands directly inside, whatever follows. -/
theorem linkText_append_close {own : Nat} {inside : List Token} (nested : Nested (own + 1) inside)
    (rest : List Token) :
    linkText own (inside ++ { level := own, event := .linkClose } :: rest) =
      (inside.filter (·.level = own + 1)).flatMap (·.event.wording) := by
  have ends : directText (own + 1) ({ level := own, event := .linkClose } :: rest) = [] := by
    rw [directText]
    exact if_pos (by simp)
  rw [linkText, directText_append nested.le_level, ends, List.append_nil]

/-- The tokens of inline text are nested, and a link that opens among nested tokens is closed by the
first token behind it that closes a link at its level.  The text of the link is what stands directly
inside: the texts and the soft line breaks one level deeper, in order.  Nothing behind the closing
token is read. -/
theorem linkText_nested (labels : List Text) (content : Text) {level own : Nat}
    {ahead behind : List Token} {anchor : Anchor}
    (nested : Nested level (ahead ++ { level := own, event := .linkOpen anchor } :: behind)) :
    Nested 0 (inlineTokens labels content) ∧
      ∃ inside rest, behind = inside ++ { level := own, event := .linkClose } :: rest ∧
        Nested (own + 1) inside ∧
        (∀ token ∈ inside, ¬ (token.event = .linkClose ∧ token.level = own)) ∧
        linkText own behind = (inside.filter (·.level = own + 1)).flatMap (·.event.wording) ∧
        ∀ other, linkText own (inside ++ { level := own, event := .linkClose } :: other) =
          linkText own behind := by
  have closes : (Event.linkOpen anchor).closing? = some .linkClose := rfl
  rcases nested.exists_closing closes rfl with ⟨inside, rest, rfl, nestedInside⟩
  have spelled := linkText_append_close nestedInside rest
  refine ⟨nested_inlineTokens labels content, inside, rest, rfl, nestedInside,
    fun token member ends => ?_, spelled, fun other => ?_⟩
  · have deeper := nestedInside.le_level token member
    have shallow := ends.2
    omega
  · rw [spelled, linkText_append_close nestedInside]

/-- A label that holds emphasis and an automatic link. -/
theorem linkText_nested_automatic :
    let content : Text := "[a *b* <ab:c>\nc](d) e"
    let outer : Anchor := { target? := some "d", position := 0, destination := 17 }
    let inner : Anchor := { target? := some "ab:c", position := 7, destination := 8 }
    let behind : List Token :=
      [⟨1, .text "a "⟩, ⟨1, .emphasisOpen⟩, ⟨2, .text "b"⟩, ⟨1, .emphasisClose⟩, ⟨1, .text " "⟩,
        ⟨1, .linkOpen inner⟩, ⟨2, .text "ab:c"⟩, ⟨1, .linkClose⟩, ⟨1, .softBreak⟩, ⟨1, .text "c"⟩,
        ⟨0, .linkClose⟩, ⟨0, .text " e"⟩]
    Nested 0 ([] ++ { level := 0, event := .linkOpen outer } :: behind) ∧
      Nested 0 (inlineTokens [] content) ∧
      (∃ inside rest, behind = inside ++ { level := 0, event := .linkClose } :: rest ∧
        Nested 1 inside ∧
        (∀ token ∈ inside, ¬ (token.event = .linkClose ∧ token.level = 0)) ∧
        linkText 0 behind = (inside.filter (·.level = 1)).flatMap (·.event.wording) ∧
        ∀ other, linkText 0 (inside ++ { level := 0, event := .linkClose } :: other) =
          linkText 0 behind) ∧
      linkText 0 behind = "a  \nc" := by
  intro content outer inner behind
  have tokens : inlineTokens [] content =
      [] ++ { level := 0, event := .linkOpen outer } :: behind := by decide +kernel
  have nested : Nested 0 ([] ++ { level := 0, event := .linkOpen outer } :: behind) := by
    rw [← tokens]
    exact nested_inlineTokens [] content
  have read := linkText_nested [] content nested
  exact ⟨nested, read.1, read.2, by decide⟩

end Markup
end Crosslink

import Crosslink.Proofs.Link.Range
import Crosslink.Proofs.Markup.Inline.Anchors
import Crosslink.Proofs.Markup.Leaves
import Crosslink.Proofs.Text.Breaks
import Crosslink.Proofs.Text.Lines

namespace Crosslink

/-!
The line that a link is reported on.  The reader of blocks ends a line at a lone carriage return,
too, and the lines that edits by line work on do not, so the two numberings agree where each
carriage return stands before a line feed.  There a link opens on the line with its number, or on
a later one if lines of blanks were trimmed off the front of its block.
-/

namespace Text

/-- No line holds a carriage return: each one stands before a line feed. -/
def ReturnsPaired (text : Text) : Prop :=
  ∀ line ∈ text.splitLines, '\r' ∉ line

instance (text : Text) : Decidable text.ReturnsPaired :=
  inferInstanceAs (Decidable (∀ line ∈ text.splitLines, '\r' ∉ line))

/-- Blanks at the end of a line are spaces and tabs. -/
def LinesEndPlainly (text : Text) : Prop :=
  ∀ line ∈ text.splitLines, ∀ place, (∀ c ∈ line.drop place, isBlank c = true) →
    ∀ c ∈ line.drop place, Markup.isSpace c = true

def withoutNulls (line : Text) : Text :=
  line.map fun c => if c = '\x00' then '\uFFFD' else c

/-- The lines for edits are those of the reader of blocks, except for null characters. -/
theorem splitOn_plainBreaks {text : Text} (paired : text.ReturnsPaired) :
    (Markup.plainBreaks text).splitOn '\n' = text.splitLines.map withoutNulls := by
  unfold ReturnsPaired at paired
  fun_induction Markup.plainBreaks text with
  | case1 => rfl
  | case2 more inductionHypothesis => exact inductionHypothesis paired
  | case3 rest notWide inductionHypothesis =>
      -- A lone carriage return stays in its line.
      rcases exists_splitLines rest with ⟨line, lines, cut⟩
      rw [splitLines_cons (by decide) (fun _ more begins => notWide more begins), cut] at paired
      exact absurd List.mem_cons_self (paired _ List.mem_cons_self)
  | case4 c rest notReturn inductionHypothesis =>
      by_cases isBreak : c = '\n'
      · rw [isBreak, splitLines.eq_3] at paired
        rw [isBreak, if_neg (by decide), splitOn_cons_self, splitLines.eq_3, List.map_cons,
          inductionHypothesis fun line member => paired line (List.mem_cons_of_mem _ member)]
        rfl
      · have kept : (if c = '\x00' then '\uFFFD' else c) ≠ '\n' := by
          split
          · decide
          · exact isBreak
        rcases exists_splitLines rest with ⟨line, lines, cut⟩
        rw [splitLines_cons isBreak fun isReturn => absurd isReturn notReturn, cut, consLine]
          at paired ⊢
        rw [cut] at inductionHypothesis
        have further := inductionHypothesis fun other member => by
          rcases List.mem_cons.mp member with rfl | later
          · exact fun held => paired _ List.mem_cons_self (List.mem_cons_of_mem c held)
          · exact paired other (List.mem_cons_of_mem _ later)
        rcases splitOn_cons_of_ne kept (Markup.plainBreaks rest) with ⟨piece, pieces, same, whole⟩
        rw [same] at further
        cases further
        rw [whole]
        rfl

theorem ReturnsPaired.getElem?_succ {text : Text} (paired : text.ReturnsPaired) {place : Nat}
    (held : text[place]? = some '\r') : text[place + 1]? = some '\n' := by
  unfold ReturnsPaired at paired
  fun_induction Markup.plainBreaks text generalizing place with
  | case1 => cases held
  | case2 more inductionHypothesis =>
      cases place with
      | zero => rfl
      | succ place => exact inductionHypothesis paired held
  | case3 rest notWide =>
      rcases exists_splitLines rest with ⟨line, lines, cut⟩
      rw [splitLines_cons (by decide) (fun _ more begins => notWide more begins), cut] at paired
      exact absurd List.mem_cons_self (paired _ List.mem_cons_self)
  | case4 c rest notReturn inductionHypothesis =>
      cases place with
      | zero => exact absurd (Option.some.inj held) notReturn
      | succ place =>
          refine inductionHypothesis (fun line member => ?_) held
          by_cases isBreak : c = '\n'
          · rw [isBreak, splitLines.eq_3] at paired
            exact paired line (List.mem_cons_of_mem _ member)
          · rcases exists_splitLines rest with ⟨first, lines, cut⟩
            rw [splitLines_cons isBreak fun isReturn => absurd isReturn notReturn, cut, consLine]
              at paired
            rw [cut] at member
            rcases List.mem_cons.mp member with rfl | later
            · exact fun inFirst => paired _ List.mem_cons_self (List.mem_cons_of_mem c inFirst)
            · exact paired line (List.mem_cons_of_mem _ later)

@[simp] theorem isBlank_withoutNulls (c : Char) :
    isBlank (if c = '\x00' then '\uFFFD' else c) = isBlank c := by
  split
  · next same =>
      rw [same]
      decide
  · rfl

/-- What is asked of the ends of lines holds of the lines that the reader of blocks sees. -/
theorem LinesEndPlainly.plainBreaks {text : Text} (plainly : text.LinesEndPlainly)
    (paired : text.ReturnsPaired) : Markup.EndsPlainly (Markup.plainBreaks text) := by
  intro position
  rcases Nat.lt_or_ge (Markup.plainBreaks text).length position with behind | within
  · rw [List.drop_eq_nil_of_le behind.le]
    exact fun _ _ held => absurd held List.not_mem_nil
  · rcases Location.exists_line_of_le within with ⟨piece, held, _, same⟩
    rw [splitOn_plainBreaks paired, List.getElem?_map] at held
    rcases Option.map_eq_some_iff.mp held with ⟨line, listed, rfl⟩
    rw [← same, withoutNulls, ← List.map_drop]
    intro blank c member
    rcases List.mem_map.mp member with ⟨d, inLine, rfl⟩
    have space := plainly line (List.mem_of_getElem? listed) _ (fun e inTail => by
      rw [← isBlank_withoutNulls]
      exact blank _ (List.mem_map_of_mem inTail)) d inLine
    rwa [if_neg]
    rintro rfl
    exact absurd space (by decide)

end Text

/-- A link opens on a line: the bracket of its label or of its address stands on the line, together
with what follows it on its line of the leaf that the link was read from. -/
structure Link.OpensOn (content : Text) (link : Link) (line : Text) (leaf : Markup.Leaf)
    (anchor : Markup.Anchor) (opener : Char) : Prop where
  listed : leaf ∈ (Markup.Document.ofText content).leaves
  opens : ∃ token ∈ Markup.inlineTokens (Markup.Document.ofText content).labels leaf.content,
    token.event = .linkOpen anchor
  made : ∃ text, anchor.target? = some link.href ∧
    link = ofAnchor content (content.splitOn '\n') leaf anchor link.href text
  bracket : opener = '[' ∨ opener = '<'
  held : leaf.content[anchor.position]? = some opener
  stands : Text.before '\n' (leaf.content.drop anchor.position) <:+: line.withoutNulls
  opener_mem : opener ∈ line

theorem exists_token_of_mem_extractLinks {content : Text} {link : Link}
    (member : link ∈ extractLinks content) :
    ∃ leaf ∈ (Markup.Document.ofText content).leaves,
      ∃ token ∈ Markup.inlineTokens (Markup.Document.ofText content).labels leaf.content,
        ∃ anchor text, token.event = .linkOpen anchor ∧ anchor.target? = some link.href ∧
          link = Link.ofAnchor content (content.splitOn '\n') leaf anchor link.href text := by
  rcases List.mem_flatMap.mp member with ⟨leaf, listed, found⟩
  rcases Link.exists_anchor_of_mem_ofTokens found with
    ⟨token, among, anchor, href, text, opens, leads, rfl⟩
  exact ⟨leaf, listed, token, among, anchor, text, opens, leads, rfl⟩

/-- Where each carriage return stands before a line feed, a link opens on the line that it is
reported on, or as many lines further on as were trimmed off its block; none were if only spaces
and tabs stand at the ends of lines. -/
theorem extractLinks_line (content : Text) (paired : content.ReturnsPaired) (link : Link)
    (member : link ∈ extractLinks content) :
    ∃ number skipped line leaf anchor opener, link.line = ((number + 1 : Nat) : Int) ∧
      content.splitLines[number + skipped]? = some line ∧
      link.OpensOn content line leaf anchor opener ∧
      (content.LinesEndPlainly → skipped = 0) := by
  rcases exists_token_of_mem_extractLinks member with
    ⟨leaf, listed, token, among, anchor, text, opens, leads, made⟩
  rcases Markup.opened_of_mem_inlineTokens among opens with ⟨opener, held, bracket⟩
  have seen : isBlank opener = false := by
    rcases bracket with rfl | rfl
    · decide
    · decide
  rcases (Markup.spelled_of_mem_leaves listed).spells with ⟨skipped, plain, spells⟩
  rcases spells anchor.position opener held seen with ⟨position, counted, stands⟩
  have inFirst : opener ∈ Text.before '\n' (leaf.content.drop anchor.position) := by
    rcases List.getElem?_eq_some_iff.mp held with ⟨inside, here⟩
    rw [List.drop_eq_getElem_cons inside, here, Text.before_cons_of_ne]
    · exact List.mem_cons_self
    · rintro rfl
      cases seen
  have within : position ≤ (Markup.plainBreaks content).length := by
    have inRest := List.length_pos_of_mem (stands.subset inFirst)
    rw [List.length_drop] at inRest
    omega
  rcases Location.exists_line_of_le within with ⟨piece, heldPiece, _, same⟩
  rw [Text.splitOn_plainBreaks paired, List.getElem?_map, counted] at heldPiece
  rcases Option.map_eq_some_iff.mp heldPiece with ⟨line, heldLine, rfl⟩
  have inLine : Text.before '\n' (leaf.content.drop anchor.position) <:+: line.withoutNulls := by
    have first := Text.isPrefix_before '\n' stands
    rw [Text.before_of_not_mem (Text.not_mem_before '\n' _), ← same] at first
    exact first.isInfix.trans (List.drop_suffix _ _).isInfix
  refine ⟨leaf.line + (leaf.content.take anchor.position).count '\n', skipped, line, leaf, anchor,
    opener, ?_, ?_, ⟨listed, ⟨token, among, opens⟩, ⟨text, leads, made⟩, bracket, held, inLine, ?_⟩,
    fun plainly => plain (plainly.plainBreaks paired)⟩
  · rw [made]
    rfl
  · rw [Nat.add_right_comm]
    exact heldLine
  · rcases List.mem_map.mp (inLine.subset inFirst) with ⟨c, inText, written⟩
    split at written
    · rw [← written] at bracket
      exact absurd bracket (by decide)
    · exact written ▸ inText

/-- A quotation with wide line breaks. -/
theorem extractLinks_line_quoted :
    let content : Text := "# t\r\n> a\r\n> [b](c.md)"
    let link : Link :=
      { href := "c.md", text := "b", line := 3, start? := some 16, stop? := some 20 }
    content.ReturnsPaired ∧ link ∈ extractLinks content ∧
      ∃ number skipped line leaf anchor opener, link.line = ((number + 1 : Nat) : Int) ∧
        content.splitLines[number + skipped]? = some line ∧
        link.OpensOn content line leaf anchor opener ∧
        (content.LinesEndPlainly → skipped = 0) :=
  have paired : Text.ReturnsPaired _ := by decide +kernel
  have member : _ ∈ extractLinks _ := by decide +kernel
  ⟨paired, member, extractLinks_line _ paired _ member⟩

/-- A line of a no-break space is trimmed off, and the link behind it is reported on that line. -/
example : (extractLinks "\u00a0\n[x](b.md)").map (·.line) = [1] := by
  decide +kernel

/-- A lone carriage return ends a line for the reader of blocks alone. -/
example : (extractLinks "a\r[x](b.md)").map (·.line) = [2] ∧
    (Text.splitLines "a\r[x](b.md)").length = 1 := by
  decide +kernel

end Crosslink

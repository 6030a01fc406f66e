import Mathlib.Data.List.Forall2
import Crosslink.Proofs.Link.Apart
import Crosslink.Proofs.Link.Opening
import Crosslink.Proofs.Markup.Stencil.Document
import Crosslink.Proofs.Markup.Stencil.Read
import Crosslink.Proofs.Markup.Stencil.Shown

namespace Crosslink

/-!
The true place of a destination.  A destination is located by looking for its inline line in the
line of the document, and the first place where the inline line occurs need not be the one that it
was read from.  Where the line of the document holds no other parentheses than the inline line, the
places of the two are told by these, and a destination right behind a parenthesis is located at its
own place.
-/

open Markup

/-- Two places that a mark stands at are the same if as many marks stand up to each of them. -/
theorem eq_of_count_take {text : Text} {mark : Char} {first second : Nat}
    (held : text[first]? = some mark) (heldSecond : text[second]? = some mark)
    (counted : (text.take (first + 1)).count mark = (text.take (second + 1)).count mark) :
    first = second := by
  have step {place : Nat} (stands : text[place]? = some mark) :
      (text.take (place + 1)).count mark = (text.take place).count mark + 1 := by
    rw [List.take_add_one, stands, List.count_append, Option.toList_some, List.count_singleton_self]
  have mono {place other : Nat} (ordered : place ≤ other) :
      (text.take place).count mark ≤ (text.take other).count mark :=
    (List.take_prefix_take_left ordered).sublist.count_le _
  rw [step held, step heldSecond] at counted
  rcases Nat.lt_trichotomy first second with before | same | behind
  · have more := mono (Nat.succ_le_of_lt before)
    rw [Nat.succ_eq_add_one, step held] at more
    omega
  · exact same
  · have more := mono (Nat.succ_le_of_lt behind)
    rw [Nat.succ_eq_add_one, step heldSecond] at more
    omega

namespace Location

namespace IsLine

variable {text front line back : Text} {position : Nat}

theorem openedAfter_take (isLine : IsLine text front line back) (ahead : front.length ≤ position)
    (within : position ≤ front.length + line.length) :
    openedAfter 0 (text.take position) = (line.take (position - front.length)).count '(' := by
  have oneLine : '\n' ∉ line.take (position - front.length) := fun member =>
    isLine.oneLine (List.mem_of_mem_take member)
  have cut : text.take position = front ++ line.take (position - front.length) := by
    rcases Nat.exists_eq_add_of_le ahead with ⟨inset, rfl⟩
    rw [List.take_add, isLine.take_front, isLine.drop_front, List.take_append_of_le_length (by omega),
      Nat.add_sub_cancel_left]
  rw [cut]
  rcases isLine.begins with rfl | ⟨earlier, rfl⟩
  · rw [List.nil_append, openedAfter_of_oneLine oneLine, Nat.zero_add]
  · rw [List.append_assoc, List.singleton_append, openedAfter_break,
      openedAfter_of_oneLine oneLine, Nat.zero_add]

theorem opens_drop (isLine : IsLine text front line back) (ahead : front.length ≤ position)
    (within : position ≤ front.length + line.length) :
    opens (text.drop position) = (line.drop (position - front.length)).count '(' :=
  congrArg (List.count '(') (isLine.before_drop ahead within)

/-- Lines with the same number are the same. -/
theorem eq_of_count (isLine : IsLine text front line back) {front' line' back' : Text}
    (other : IsLine text front' line' back') (same : front.count '\n' = front'.count '\n') :
    front.length = front'.length ∧ line = line' := by
  have here := isLine.numbered
  rw [same] at here
  exact ⟨here.2.symm.trans other.numbered.2,
    Option.some.inj (here.1.symm.trans other.numbered.1)⟩

/-- A character that is no line break stands in front of a position on the line of the position. -/
theorem exists_of_front {docLine : Text} (isLine : IsLine text front docLine back)
    (ahead : front.length ≤ position) (within : position ≤ front.length + docLine.length)
    {before : Nat} (next : position = before + 1) {c : Char} (held : text[before]? = some c)
    (notBreak : c ≠ '\n') :
    ∃ inset, position - front.length = inset + 1 ∧ docLine[inset]? = some c := by
  have inside : front.length ≤ before := by
    by_contra outside
    have last : front.length = before + 1 := by omega
    rcases isLine.begins with rfl | ⟨earlier, rfl⟩
    · cases last
    · have size : earlier.length = before := by
        rw [List.length_append, List.length_singleton] at last
        omega
      have isBreak : text[before]? = some '\n' := by
        rw [isLine.whole, List.getElem?_append_left (by omega), ← size,
          List.getElem?_append_right (Nat.le_refl _), Nat.sub_self]
        rfl
      exact notBreak (Option.some.inj (held.symm.trans isBreak))
  refine ⟨before - front.length, by omega, ?_⟩
  rw [isLine.whole, List.getElem?_append_right inside, List.getElem?_append_left (by omega)] at held
  exact held

end IsLine

variable {content : Text} {leaf : Leaf}

/-- A piece of a line that holds all of its parentheses stands at one place of it. -/
theorem eq_of_prefix_drop {docLine own piece : Text} {column inset place : Nat}
    (stands : piece <+: docLine.drop column) (isPiece : piece <+: own)
    (closed : own.count '(' = piece.count '(') (whole : docLine.count '(' = own.count '(')
    (opened : (docLine.take (column + inset)).count '(' = (own.take (place + 1)).count '(')
    (held : own[place]? = some '(')
    (heldLine : ∃ before, column + inset = before + 1 ∧ docLine[before]? = some '(') :
    inset = place + 1 := by
  rcases stands with ⟨rest, cutLine⟩
  rcases isPiece with ⟨tail, rfl⟩
  have cut : docLine = docLine.take column ++ (piece ++ rest) := by
    rw [cutLine, List.take_append_drop]
  have counts := congrArg (List.count '(') cut
  rw [List.count_append, List.count_append] at counts
  rw [List.count_append] at closed whole
  have noneFront : '(' ∉ docLine.take column := List.count_eq_zero.mp (by omega)
  have noneRest : '(' ∉ rest := List.count_eq_zero.mp (by omega)
  have noneTail : '(' ∉ tail := List.count_eq_zero.mp (by omega)
  have inPiece {behind : Text} (none : '(' ∉ behind) {spot : Nat}
      (shown : (piece ++ behind)[spot]? = some '(') : spot < piece.length := by
    by_contra outside
    rw [List.getElem?_append_right (Nat.le_of_not_lt outside)] at shown
    exact none (List.mem_of_getElem? shown)
  rcases heldLine with ⟨before, next, shown⟩
  rcases Nat.lt_or_ge before column with short | beyond
  · rw [← List.getElem?_take_of_lt short] at shown
    exact absurd (List.mem_of_getElem? shown) noneFront
  · rcases Nat.exists_eq_add_of_le beyond with ⟨step, rfl⟩
    obtain rfl : inset = step + 1 := by omega
    rw [← List.getElem?_drop, ← cutLine] at shown
    have within := inPiece noneTail held
    have withinLine := inPiece noneRest shown
    rw [List.getElem?_append_left within] at held
    rw [List.getElem?_append_left withinLine] at shown
    rw [List.take_add, List.count_append, List.count_eq_zero.mpr noneFront, Nat.zero_add, ← cutLine,
      List.take_append_of_le_length withinLine, List.take_append_of_le_length within] at opened
    rw [eq_of_count_take shown held opened]

/-- The destination of a link that is located right behind a parenthesis is what stands at the same
place of the inline text. -/
theorem eq_of_aligned {position start place : Nat} (within : position ≤ leaf.content.length)
    (carried : (Location.of (content.splitOn '\n') leaf position).position? = some start)
    (inside : start ≤ content.length) (insideLeaf : place ≤ leaf.content.length)
    (onLine : (content.take start).count '\n' = lineOf leaf position)
    (aligned : Aligned leaf.line (content.take start) (content.drop start)
      (leaf.content.take place) (leaf.content.drop place))
    {before own : Nat} (next : start = before + 1) (held : content[before]? = some '(')
    (nextOwn : place = own + 1) (heldOwn : leaf.content[own]? = some '(') : position = place := by
  rcases position?_eq_some carried with ⟨line, column, listed, stands, shift⟩
  rcases exists_isLine_of_le inside with ⟨front, docLine, back, isLine, ahead, upTo⟩
  rcases exists_isLine_of_le within with ⟨frontOwn, inline, backOwn, isOwn, aheadOwn, upToOwn⟩
  rcases exists_isLine_of_le insideLeaf with ⟨frontPlace, _, _, isPlace, aheadPlace, upToPlace⟩
  have number := isLine.count_take ahead upTo
  have numberOwn := isOwn.count_take aheadOwn upToOwn
  have numberPlace := isPlace.count_take aheadPlace upToPlace
  -- The line of the document, and that of the place, are those of the position.
  have sameLine : front.count '\n' = leaf.line + (leaf.content.take position).count '\n' :=
    number.symm.trans onLine
  have samePlace : frontOwn.count '\n' = frontPlace.count '\n' := by
    have told := aligned.line
    rw [number, sameLine, numberPlace, numberOwn] at told
    exact Nat.add_left_cancel told
  rcases isOwn.eq_of_count isPlace samePlace with ⟨sameFront, rfl⟩
  rw [← sameFront] at aheadPlace upToPlace
  rw [← sameLine, isLine.numbered.1] at listed
  obtain rfl : docLine = line := Option.some.inj listed
  rw [numberOwn, isOwn.numbered.1, Option.getD_some] at stands
  rw [← sameLine, numberOwn, isOwn.numbered.2, isLine.numbered.2] at shift
  have opened := aligned.opened
  rw [isLine.openedAfter_take ahead upTo, isOwn.openedAfter_take aheadPlace upToPlace] at opened
  have opens := aligned.opens
  rw [isLine.opens_drop ahead upTo, isOwn.opens_drop aheadPlace upToPlace] at opens
  have whole : docLine.count '(' = inline.count '(' := by
    rw [← List.take_append_drop (start - front.length) docLine, List.count_append, opened, opens,
      ← List.count_append, List.take_append_drop]
  have closed : inline.count '(' = inline.trimEnd.count '(' := by
    rcases Text.exists_trimEnd_append inline with ⟨tail, cut, blank⟩
    have none : '(' ∉ tail := fun member => Bool.noConfusion (blank _ member)
    conv_lhs => rw [cut, List.count_append, List.count_eq_zero.mpr none, Nat.add_zero]
  rcases isLine.exists_of_front ahead upTo next held (by decide) with ⟨spot, far, shown⟩
  rcases isOwn.exists_of_front aheadPlace upToPlace nextOwn heldOwn (by decide) with
    ⟨ownSpot, farOwn, shownOwn⟩
  have far' : start - front.length = column + (position - frontOwn.length) := by omega
  rw [far', farOwn] at opened
  have same := eq_of_prefix_drop
    ((prefix_drop_of_column? stands).trans (Text.drop_prefix_drop (Text.isPrefix_trimEnd docLine) _))
    (Text.isPrefix_trimEnd inline) closed whole opened shownOwn ⟨spot, far'.symm.trans far, shown⟩
  omega

end Location

namespace Link

variable {content : Text}

/-- Where a link with a range was read from: its destination is carried to the beginning of the
range, and lies on the line that the range begins on. -/
structure ReadAt (content : Text) (link : Link) (start : Nat) (leaf : Leaf) (anchor : Anchor) :
    Prop where
  listed : leaf ∈ (Document.ofText content).leaves
  opens : ∃ token ∈ inlineTokens (Document.ofText content).labels leaf.content,
    token.event = .linkOpen anchor
  leads : anchor.target? = some link.href
  within : anchor.destination ≤ leaf.content.length
  carried : (Location.of (content.splitOn '\n') leaf anchor.destination).position? = some start
  onLine : (content.take start).count '\n' = Location.lineOf leaf anchor.destination

theorem exists_readAt {link : Link} (member : link ∈ extractLinks content)
    (visible : Visible link.href) {start : Nat} (hasStart : link.start? = some (start : Int)) :
    ∃ leaf anchor, ReadAt content link start leaf anchor := by
  rcases exists_token_of_mem_extractLinks member with
    ⟨leaf, listed, token, among, anchor, text, opens, leads, made⟩
  rcases exists_stretch_of_mem_inlineTokens among opens leads with ⟨stretch, aim, fits⟩
  rw [made] at hasStart
  rcases Option.map_eq_some_iff.mp hasStart with ⟨range, found, same⟩
  have sameHref : stretch.href = link.href := congrArg Prod.fst aim
  have sameStart : stretch.start = anchor.destination := congrArg Prod.snd aim
  have found : Location.range? content leaf stretch.aim = some range := by
    rw [aim]
    exact found
  have within : stretch.start ≤ leaf.content.length := fits.ordered.trans fits.le_high
  rcases Location.exists_found within found with
    ⟨line, tail, own, place, inset, there, position, _⟩
  have onLine := there.place_lt (there.exists_visible fits (sameHref ▸ visible))
  have begins : range.1 = start := Int.ofNat_inj.mp same
  rw [begins] at position
  refine ⟨leaf, anchor, listed, ⟨token, among, opens⟩, leads, sameStart ▸ within, ?_, ?_⟩
  · have carried := (Location.range?_eq_some found).1
    rw [begins, aim] at carried
    exact carried
  · have counted := Location.count_take_of_line there.held (position ▸ Nat.le_add_right _ _) (by omega)
    rw [counted, aim]

/-- No two leaves share a line. -/
theorem eq_of_shared_line {leaf other : Leaf} (listed : leaf ∈ (Document.ofText content).leaves)
    (listedOther : other ∈ (Document.ofText content).leaves) {number : Nat}
    (low : leaf.line ≤ number) (high : number ≤ leaf.lastLine) (lowOther : other.line ≤ number)
    (highOther : number ≤ other.lastLine) : leaf = other := by
  by_contra different
  -- One of the two stands in front of the other.
  have apart := List.pairwise_iff_getElem.mp (leaves_pairwise content)
  rcases List.getElem_of_mem listed with ⟨first, within, rfl⟩
  rcases List.getElem_of_mem listedOther with ⟨second, withinOther, rfl⟩
  rcases Nat.lt_trichotomy first second with before | same | behind
  · have := apart first second within withinOther before
    omega
  · exact different (by simp only [same])
  · have := apart second first withinOther within behind
    omega

end Link

/-!
## Links of a document with slots

Where every slot is the destination of a link that has been located, filling the slots with other
words changes where these links lead and nothing else: the document has as many links as before, in
the same order and with the same texts.  A slot that is no destination is not safe: a word in it may
then open a link or end one.
-/

namespace Markup

variable {words : Nat → Text} {stencil : Stencil} {tokens : List Token} {destination : Nat}

theorem mem_aimed {token : Token} {anchor : Anchor} {href : Text} (among : token ∈ tokens)
    (opens : token.event = .linkOpen anchor) (leads : anchor.target? = some href) :
    anchor.destination ∈ Stencil.aimed tokens := by
  have listed : anchor ∈ tokens.filterMap (·.event.anchor?) :=
    List.mem_filterMap.mpr ⟨token, among, by rw [opens]; rfl⟩
  have aim : anchor.aim? = some (href, anchor.destination) := by
    rw [Anchor.aim?, leads]
    rfl
  exact List.mem_map.mpr ⟨_, List.mem_filterMap.mpr ⟨anchor, listed, aim⟩, rfl⟩

namespace Stencil

/-- Links that are moved to a filled text have their destinations at the places there. -/
theorem aimed_exchange (words : Nat → Text) (stencil : Stencil) (tokens : List Token) :
    aimed (tokens.map (Token.exchange (fillAnchor words stencil))) =
      (aimed tokens).map (place words stencil) := by
  have moved (token : Token) : (token.exchange (fillAnchor words stencil)).event.aim? =
      token.event.aim?.map fun aim => (href words stencil aim.2 aim.1, place words stencil aim.2) := by
    rcases token with ⟨_, event⟩
    cases event with
    | linkOpen anchor =>
        change (fillAnchor words stencil anchor).aim? = _
        rw [Anchor.aim?, Event.aim?_linkOpen, Option.map_map, fillAnchor, Option.map_map]
        rfl
    | _ => rfl
  have whole (tokens : List Token) :
      aimed tokens = (tokens.filterMap (·.event.aim?)).map Prod.snd := by
    rw [aimed, destinations, List.filterMap_filterMap]
    rfl
  rw [whole, whole, List.filterMap_map, List.map_map]
  simp only [Function.comp_def, moved]
  rw [← List.map_filterMap, List.map_map]
  rfl

/-- If each slot is a destination in one filled text, every filled text is read as the outline. -/
theorem inlineTokens_of_aimed {words' : Nat → Text} (proper : stencil.Proper) (inert : Inert words)
    (inert' : Inert words') (aimed : ∀ slot, stencil.IsSlot slot →
      place words stencil slot ∈ aimed (inlineTokens [] (text words stencil))) :
    inlineTokens [] (text words' stencil) =
      (inlineTokens [] stencil.outline).map (Token.exchange (fillAnchor words' stencil)) := by
  have read := inlineTokens_text proper inert fun slot isSlot => .inr (aimed slot isSlot)
  refine inlineTokens_text proper inert' fun slot isSlot => .inl ?_
  have member := aimed slot isSlot
  rw [read, aimed_exchange] at member
  rcases List.mem_map.mp member with ⟨destination, listed, same⟩
  exact (place_strictMono inert).injective same ▸ listed

end Stencil
end Markup

open Markup

namespace Link

variable {words words' : Nat → Text} {stencil : Stencil} {forms : List Stencil.Form}

/-- Every slot is where a link is located that the filled text has. -/
def Lodged (words : Nat → Text) (stencil : Stencil) : Prop :=
  ∀ front slot back, stencil = front ++ .slot slot :: back →
    ∃ link ∈ extractLinks (Stencil.text words stencil),
      link.start? = some ((Stencil.text words front).length : Int)

/-- A link has the text that it had, and leads where it led or where the word of its slot says. -/
structure Exchanged (words words' : Nat → Text) (stencil : Stencil) (link revised : Link) : Prop where
  text : revised.text = link.text
  line : revised.line = link.line
  href : revised.href = link.href ∨ ∃ number, .slot number ∈ stencil ∧ link.href = words number ∧
    revised.href = words' number

/-- What is located where a word stands can be seen. -/
theorem visible_of_lodged (inert : Inert words) {front back : Stencil} {slot : Nat} {link : Link}
    (member : link ∈ extractLinks (Stencil.text words (front ++ .slot slot :: back)))
    (located : link.start? = some ((Stencil.text words front).length : Int)) :
    Visible link.href := by
  rcases exists_token_of_mem_extractLinks member with ⟨_, _, _, _, _, _, _, _, made⟩
  rw [made] at located
  rcases Option.map_eq_some_iff.mp located with ⟨range, found, same⟩
  rcases Option.bind_eq_some_iff.mp found with ⟨position, _, spells⟩
  rcases Location.hrefRange?_eq_some spells with ⟨rfl, nonempty, begins, _⟩
  obtain rfl : position = (Stencil.text words front).length := Int.ofNat_inj.mp same
  rw [Stencil.text_append, List.drop_left] at begins
  rcases List.exists_cons_of_ne_nil nonempty with ⟨c, rest, href⟩
  rcases List.exists_cons_of_ne_nil (inert slot).1 with ⟨d, more, word⟩
  have whole : Stencil.text words (.slot slot :: back) = d :: (more ++ Stencil.text words back) := by
    rw [Stencil.text, List.flatMap_cons, Cell.fill, word]
    rfl
  rw [whole, href] at begins
  obtain rfl : c = d := (List.cons_prefix_cons.mp begins).1
  exact ⟨c, href ▸ List.mem_cons_self,
    Stencil.isBlank_of_isInert ((inert slot).2 c (word ▸ List.mem_cons_self))⟩

/-- A parenthesis stands in front of the place of a slot. -/
theorem exists_parenthesis (words : Nat → Text) {front : Stencil} (opens : front.EndsOpen) (behind : Text) :
    ∃ before, (Stencil.text words front).length = before + 1 ∧
      (Stencil.text words front ++ behind)[before]? = some '(' := by
  rcases opens with ⟨label, rfl⟩
  have whole : Stencil.text words (label ++ [.letter ']', .letter '(']) =
      (Stencil.text words label ++ [']']) ++ ['('] := by
    rw [Stencil.text_append, List.append_assoc]
    rfl
  refine ⟨(Stencil.text words label ++ [']']).length, ?_, ?_⟩
  · rw [whole, List.length_append]
    rfl
  · rw [whole, List.append_assoc, List.getElem?_append_right (Nat.le_refl _), Nat.sub_self]
    rfl

/-- Each slot of a run of inline text is the destination of the link that has been located there. -/
theorem mem_aimed_of_lodged (proper : stencil.Proper) (inert : Inert words)
    (shown : ∀ form ∈ forms, Stencil.Shown stencil.plain form.line form.cells)
    (reads : Document.ofText (Stencil.text words stencil) =
      { leaves := forms.map (Stencil.Form.leaf words), labels := [] })
    (lodged : Lodged words stencil) {form : Stencil.Form} (member : form ∈ forms) {slot : Nat}
    (isSlot : form.cells.IsSlot slot) :
    Stencil.place words form.cells slot ∈
      Stencil.aimed (inlineTokens [] (Stencil.text words form.cells)) := by
  rcases isSlot with ⟨number, held⟩
  rcases List.getElem?_eq_some_iff.mp held with ⟨within, same⟩
  have whole : form.cells = form.cells.take slot ++ .slot number :: form.cells.drop (slot + 1) := by
    conv_lhs => rw [← List.take_append_drop slot form.cells, List.drop_eq_getElem_cons within, same]
  have slotPlace : Stencil.place words form.cells slot =
      (Stencil.text words (form.cells.take slot)).length := Stencil.place_of_le within.le
  rw [slotPlace]
  generalize form.cells.take slot = ownFront, form.cells.drop (slot + 1) = ownBack at whole
  have inForm := (shown form member).slots ownFront number ownBack whole
  rcases inForm.aligned with ⟨_, _, inPlain, ownAligned⟩
  rcases Stencil.exists_of_plain_eq inPlain with ⟨front, back, inDocument, rfl, rfl⟩
  have aligned := Stencil.aligned_text inert number
    ((Stencil.aligned_plain front back).trans ownAligned)
  have content : Stencil.text words stencil =
      Stencil.text words front ++ (words number ++ Stencil.text words back) := by
    rw [inDocument, Stencil.text_append]
    rfl
  have own : Stencil.text words form.cells =
      Stencil.text words ownFront ++ (words number ++ Stencil.text words ownBack) := by
    rw [whole, Stencil.text_append]
    rfl
  rcases lodged front number back inDocument with ⟨link, listed, located⟩
  rcases exists_readAt listed (visible_of_lodged inert (inDocument ▸ listed) located) located with
    ⟨leaf, anchor, read⟩
  have formListed : form.leaf words ∈ (Document.ofText (Stencil.text words stencil)).leaves := by
    rw [reads]
    exact List.mem_map_of_mem member
  have onLine := read.onLine
  have line := aligned.line
  rw [content, List.take_left] at onLine
  -- The link that is located here was read from the same run of inline text.
  obtain rfl : form.leaf words = leaf := by
    refine eq_of_shared_line formListed read.listed (line.symm ▸ Nat.le_add_right _ _) ?_
      (onLine.symm ▸ Nat.le_add_right _ _) ?_
    · have inLeaf : (Stencil.text words ownFront).count '\n' ≤
          (Stencil.text words form.cells).count '\n' := by
        rw [own, List.count_append]
        exact Nat.le_add_right _ _
      rw [line]
      exact Nat.add_le_add_left inLeaf form.line
    · rw [onLine]
      exact Nat.add_le_add_left ((List.take_sublist _ _).count_le _) _
  rcases exists_parenthesis words (proper.around inDocument).1
    (words number ++ Stencil.text words back) with ⟨before, next, opening⟩
  rcases exists_parenthesis words inForm.endsOpen
    (words number ++ Stencil.text words ownBack) with ⟨ownBefore, ownNext, ownOpening⟩
  rw [← content] at opening
  rw [← own] at ownOpening
  have place : anchor.destination = (Stencil.text words ownFront).length := by
    refine Location.eq_of_aligned read.within read.carried ?_ ?_ read.onLine ?_ next opening ownNext
      ownOpening
    · rw [content, List.length_append]
      exact Nat.le_add_right _ _
    · change _ ≤ (Stencil.text words form.cells).length
      rw [own, List.length_append]
      exact Nat.le_add_right _ _
    · change Aligned form.line _ _ ((Stencil.text words form.cells).take _)
        ((Stencil.text words form.cells).drop _)
      rw [content, own, List.take_left, List.drop_left, List.take_left, List.drop_left]
      exact aligned
  rcases read.opens with ⟨token, among, opens⟩
  rw [reads] at among
  exact place ▸ mem_aimed among opens read.leads

/-! ## The links of two filled texts -/

theorem href_exchanged (words words' : Nat → Text) (cells : Stencil) (destination : Nat) (own : Text) :
    Stencil.href words' cells destination own = Stencil.href words cells destination own ∨
      ∃ number, .slot number ∈ cells ∧
        Stencil.href words cells destination own = words number ∧
        Stencil.href words' cells destination own = words' number := by
  by_cases isSlot : cells.IsSlot destination
  · rcases isSlot with ⟨number, held⟩
    exact Or.inr ⟨number, List.mem_of_getElem? held, Stencil.href_of_slot held own,
      Stencil.href_of_slot held own⟩
  · rw [Stencil.href_of_not_isSlot isSlot, Stencil.href_of_not_isSlot isSlot]
    exact Or.inl rfl

theorem line_ofAnchor (content : Text) (lines : List Text) (inert : Inert words)
    (form : Stencil.Form) (anchor : Anchor) (href text : Text) :
    (ofAnchor content lines (form.leaf words) (Stencil.fillAnchor words form.cells anchor) href
      text).line = (form.line + (Stencil.outline (form.cells.take anchor.position)).count '\n' : Nat) + 1 := by
  change (((form.line + ((Stencil.text words form.cells).take
    (Stencil.place words form.cells anchor.position)).count '\n' : Nat) : Int) + 1) = _
  rw [Stencil.take_place, Stencil.text, (Stencil.countsAlike_fill inert).count_flatMap]

/-- The links of a run of inline text, filled in two ways. -/
theorem exchanged_ofTokens {content content' : Text} {lines lines' : List Text}
    (inert : Inert words) (inert' : Inert words') {form : Stencil.Form}
    (held : ∀ number, Cell.slot number ∈ form.cells → Cell.slot number ∈ stencil)
    (tokens : List Token) :
    List.Forall₂ (Exchanged words words' stencil)
      (ofTokens content lines (form.leaf words)
        (tokens.map (Token.exchange (Stencil.fillAnchor words form.cells))))
      (ofTokens content' lines' (form.leaf words')
        (tokens.map (Token.exchange (Stencil.fillAnchor words' form.cells)))) := by
  induction tokens with
  | nil => exact .nil
  | cons token rest inductionHypothesis =>
      rcases token with ⟨level, event⟩
      cases event with
      | linkOpen anchor =>
          rcases anchor with ⟨_ | own, position, destination⟩
          · exact inductionHypothesis
          · refine .cons ⟨?_, ?_, ?_⟩ inductionHypothesis
            · exact (linkText_exchange level rest).trans (linkText_exchange level rest).symm
            · exact (line_ofAnchor content' lines' inert' form ⟨some own, position, destination⟩ _ _).trans
                (line_ofAnchor content lines inert form ⟨some own, position, destination⟩ _ _).symm
            · rcases href_exchanged words words' form.cells destination own with
                same | ⟨number, inForm, before, after⟩
              · exact Or.inl same
              · exact Or.inr ⟨number, held number inForm, before, after⟩
      | _ => exact inductionHypothesis

/-- Where each slot is the destination of a link, other words change where these links lead, and
nothing else of the links. -/
theorem exchanged_extractLinks (proper : stencil.Proper) (paired : stencil.Paired)
    (undefining : stencil.Undefining) (plainly : EndsPlainly stencil.plain.outline)
    (inert : Inert words) (inert' : Inert words') (lodged : Lodged words stencil) :
    List.Forall₂ (Exchanged words words' stencil) (extractLinks (Stencil.text words stencil))
      (extractLinks (Stencil.text words' stencil)) := by
  rcases Stencil.exists_forms proper paired undefining plainly with ⟨forms, shown, reads⟩
  have read := reads words inert
  rw [extractLinks, extractLinks, read, reads words' inert']
  dsimp only
  rw [List.flatMap_map, List.flatMap_map]
  have each : ∀ form ∈ forms, List.Forall₂ (Exchanged words words' stencil)
      (ofTokens (Stencil.text words stencil) ((Stencil.text words stencil).splitOn '\n')
        (form.leaf words) (inlineTokens [] (form.leaf words).content))
      (ofTokens (Stencil.text words' stencil) ((Stencil.text words' stencil).splitOn '\n')
        (form.leaf words') (inlineTokens [] (form.leaf words').content)) := by
    intro form member
    have own := (shown form member).proper
    have aimed : ∀ slot, form.cells.IsSlot slot → Stencil.place words form.cells slot ∈
        Stencil.aimed (inlineTokens [] (Stencil.text words form.cells)) :=
      fun slot isSlot => mem_aimed_of_lodged proper inert shown read lodged member isSlot
    have held : ∀ number, Cell.slot number ∈ form.cells → Cell.slot number ∈ stencil := by
      intro number inForm
      rcases List.append_of_mem inForm with ⟨front, back, whole⟩
      rcases ((shown form member).slots front number back whole).aligned with
        ⟨before, after, inPlain, _⟩
      rcases Stencil.exists_of_plain_eq inPlain with ⟨docFront, docBack, inDocument, _, _⟩
      exact inDocument ▸ List.mem_append_right _ List.mem_cons_self
    change List.Forall₂ _ (ofTokens _ _ _ (inlineTokens [] (Stencil.text words form.cells)))
      (ofTokens _ _ _ (inlineTokens [] (Stencil.text words' form.cells)))
    rw [Stencil.inlineTokens_of_aimed own inert inert aimed,
      Stencil.inlineTokens_of_aimed own inert inert' aimed]
    exact exchanged_ofTokens inert inert' held _
  have same : List.Forall₂ (fun form other => form = other ∧ form ∈ forms) forms forms :=
    List.forall₂_same.mpr fun form member => ⟨rfl, member⟩
  exact List.rel_flatMap same fun form other equal => equal.1 ▸ each form equal.2

end Link

end Crosslink

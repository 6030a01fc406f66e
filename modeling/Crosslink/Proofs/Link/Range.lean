import Crosslink.Link.Extract
import Crosslink.Proofs.Edit.Simultaneous
import Crosslink.Proofs.Revision.Generation

namespace Crosslink

/-!
The range that a link is found with.  A range is recorded only where the text spells the href
there and goes on with a mark that ends a destination, so an edit that takes the range of a link
finds the old href where it looks for it.
-/

namespace Location

theorem hrefRange?_eq_some {text href : Text} {position : Nat} {range : Nat × Nat}
    (found : hrefRange? text href position = some range) :
    range = (position, position + href.length) ∧ href ≠ [] ∧ href <+: text.drop position ∧
      ∀ c, text[position + href.length]? = some c → endsDestination c = true := by
  unfold hrefRange? at found
  dsimp only at found
  split at found
  · cases found
  · next spelled =>
      rw [Bool.or_eq_true, not_or, Bool.not_eq_true, Bool.not_eq_true, Bool.not_eq_false',
        List.isEmpty_eq_false_iff] at spelled
      have next : ∀ c, text[position + href.length]? = some c →
          ((text.drop position).drop href.length).head? = some c := by
        intro c held
        rw [List.drop_drop, List.head?_drop, held]
      split at found
      · next c rest behind =>
          split at found
          · next ends =>
              cases found
              refine ⟨rfl, spelled.1, List.isPrefixOf_iff_prefix.mp spelled.2, fun d held => ?_⟩
              have same := next d held
              rw [behind, List.head?_cons] at same
              exact Option.some.inj same ▸ ends
          · cases found
      · next behind =>
          cases found
          refine ⟨rfl, spelled.1, List.isPrefixOf_iff_prefix.mp spelled.2, fun d held => ?_⟩
          have same := next d held
          rw [behind] at same
          cases same

end Location

namespace Link

open Markup

/-- The text spells the link's href in the range that was recorded for it, and goes on there with
a mark that ends a destination, if it goes on at all. -/
structure Spelled (content : Text) (link : Link) (start stop : Nat) : Prop where
  start_eq : link.start? = some (start : Int)
  stop_eq : link.stop? = some (stop : Int)
  nonempty : start < stop
  within : stop ≤ content.length
  slice_eq : content.slice start stop = link.href
  behind : ∀ c, content[stop]? = some c → c ∈ [' ', '\t', '\r', '\n', ')', '>']

theorem mem_of_endsDestination {c : Char} (ends : Location.endsDestination c = true) :
    c ∈ [' ', '\t', '\r', '\n', ')', '>'] := by
  simpa [Location.endsDestination, or_assoc] using ends

theorem spelled_ofAnchor (content : Text) (lines : List Text) (leaf : Leaf) (anchor : Anchor)
    (href text : Text) :
    (ofAnchor content lines leaf anchor href text).start? = none ∧
        (ofAnchor content lines leaf anchor href text).stop? = none ∨
      ∃ position, (Location.of lines leaf anchor.destination).position? = some position ∧
        Spelled content (ofAnchor content lines leaf anchor href text) position
          (position + href.length) := by
  cases range : (Location.of lines leaf anchor.destination).position?.bind
      (Location.hrefRange? content href) with
  | none => exact Or.inl (by simp [ofAnchor, range])
  | some found =>
      rcases Option.bind_eq_some_iff.mp range with ⟨position, located, made⟩
      rcases Location.hrefRange?_eq_some made with ⟨rfl, nonempty, spelled, behind⟩
      have positive : 0 < href.length := List.length_pos_iff.mpr nonempty
      have fits := spelled.length_le
      rw [List.length_drop] at fits
      refine Or.inr ⟨position, located, ?_⟩
      constructor
      case start_eq => simp [ofAnchor, range]
      case stop_eq => simp [ofAnchor, range]
      case nonempty => omega
      case within => omega
      case slice_eq =>
        rw [Text.slice, List.drop_take, Nat.add_sub_cancel_left]
        exact (List.prefix_iff_eq_take.mp spelled).symm
      case behind => exact fun c held => mem_of_endsDestination (behind c held)

theorem exists_anchor_of_mem_ofTokens {content : Text} {lines : List Text} {leaf : Leaf}
    {tokens : List Token} {link : Link} (member : link ∈ ofTokens content lines leaf tokens) :
    ∃ token ∈ tokens, ∃ anchor href text, token.event = .linkOpen anchor ∧
      anchor.target? = some href ∧ link = ofAnchor content lines leaf anchor href text := by
  induction tokens with
  | nil => exact absurd member List.not_mem_nil
  | cons token rest inductionHypothesis =>
      have later (found : link ∈ ofTokens content lines leaf rest) :
          ∃ other ∈ token :: rest, ∃ anchor href text, other.event = .linkOpen anchor ∧
            anchor.target? = some href ∧ link = ofAnchor content lines leaf anchor href text := by
        rcases inductionHypothesis found with ⟨other, listed, made⟩
        exact ⟨other, List.mem_cons_of_mem token listed, made⟩
      rw [ofTokens] at member
      split at member
      · next anchor opens =>
          split at member
          · next href leads =>
              rcases List.mem_cons.mp member with here | behind
              · exact ⟨token, List.mem_cons_self, anchor, href, _, opens, leads, here⟩
              · exact later behind
          · exact later member
      · exact later member

theorem Spelled.placed {content : Text} {link : Link} {start stop : Nat}
    (spelled : link.Spelled content start stop) {replacement : Replacement}
    (copies : replacement.Copies link) :
    Edit.Placed.of? replacement =
      some { replacement, start := (start : Int), stop := (stop : Int) } := by
  simp only [Edit.Placed.of?, Replacement.range?, copies.start, copies.stop, spelled.start_eq,
    spelled.stop_eq, Option.map_some]

/-- An edit that copies a link with a range finds the old href where it looks for it. -/
theorem Spelled.fits {content : Text} {link : Link} {start stop : Nat}
    (spelled : link.Spelled content start stop) {replacement : Replacement}
    (copies : replacement.Copies link) : Edit.Fits content replacement := by
  refine ⟨_, spelled.placed copies, ?_⟩
  have := spelled.nonempty
  have := spelled.within
  constructor
  case nonneg => exact Int.natCast_nonneg start
  case nonempty => exact Int.ofNat_lt.mpr spelled.nonempty
  case within => exact Int.ofNat_le.mpr spelled.within
  case spells => exact spelled.slice_eq.trans copies.oldHref.symm

end Link

theorem exists_anchor_of_mem_extractLinks {content : Text} {link : Link}
    (member : link ∈ extractLinks content) :
    ∃ leaf ∈ (Markup.Document.ofText content).leaves, ∃ anchor href text,
      link = Link.ofAnchor content (content.splitOn '\n') leaf anchor href text := by
  rcases List.mem_flatMap.mp member with ⟨leaf, listed, found⟩
  rcases Link.exists_anchor_of_mem_ofTokens found with ⟨_, _, anchor, href, text, _, _, made⟩
  exact ⟨leaf, listed, anchor, href, text, made⟩

/-- A link of a text is found without a range, or with one that spells its href, holds a character,
lies in the text and is followed by a mark that ends a destination or by the end of the text; and
an edit that copies the link from there is made in just that range. -/
theorem extractLinks_located (content : Text) (link : Link) (member : link ∈ extractLinks content) :
    (link.start? = none ∧ link.stop? = none) ∨
      ∃ start stop : Nat, link.Spelled content start stop ∧
        ∀ (window : Int) (replacement : Replacement), replacement.Copies link →
          Edit.Placed.of? replacement =
              some { replacement, start := (start : Int), stop := (stop : Int) } ∧
            Edit.applyAt? window content replacement.oldHref replacement.newHref start stop =
              some (content.take start ++ replacement.newHref ++ content.drop stop) := by
  rcases exists_anchor_of_mem_extractLinks member with ⟨leaf, _, anchor, href, text, rfl⟩
  rcases Link.spelled_ofAnchor content (content.splitOn '\n') leaf anchor href text with
    unknown | ⟨position, _, spelled⟩
  · exact Or.inl unknown
  · refine Or.inr ⟨_, _, spelled, fun window replacement copies => ?_⟩
    refine ⟨spelled.placed copies, ?_⟩
    have inside := spelled.within
    have ordered := spelled.nonempty
    have outside : ¬ ((decide ((position : Int) < 0) ||
        decide ((content.length : Int) < ((position + href.length : Nat) : Int)) ||
        decide (((position + href.length : Nat) : Int) ≤ (position : Int))) = true) := by
      simp only [Bool.or_eq_true, decide_eq_true_eq]
      omega
    have spells : content.slice (position : Int).toNat ((position + href.length : Nat) : Int).toNat =
        replacement.oldHref := spelled.slice_eq.trans copies.oldHref.symm
    have size : (((position + href.length : Nat) : Int) - (position : Int)).toNat = href.length := by
      omega
    rw [Edit.applyAt?, if_neg outside, if_pos spells, size]
    rfl

/-- A link in a quotation. -/
theorem extractLinks_located_quoted :
    let content : Text := "> [a](b.md) [c](d\\_e.md)"
    let link : Link :=
      { href := "b.md", text := "a", line := 1, start? := some 6, stop? := some 10 }
    link ∈ extractLinks content ∧
      ((link.start? = none ∧ link.stop? = none) ∨
        ∃ start stop : Nat, link.Spelled content start stop ∧
          ∀ (window : Int) (replacement : Replacement), replacement.Copies link →
            Edit.Placed.of? replacement =
                some { replacement, start := (start : Int), stop := (stop : Int) } ∧
              Edit.applyAt? window content replacement.oldHref replacement.newHref start stop =
                some (content.take start ++ replacement.newHref ++ content.drop stop)) :=
  have member : _ ∈ extractLinks _ := by decide +kernel
  ⟨member, extractLinks_located _ _ member⟩

end Crosslink

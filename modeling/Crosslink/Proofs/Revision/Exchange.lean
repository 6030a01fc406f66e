import Crosslink.Proofs.Revision.Generation
import Crosslink.Proofs.Text.Pieces
import Crosslink.Revision.Substitute

namespace Crosslink
namespace Substitute

/-!
Exchanging the beginning of links there and back.  An href is compared with the old base as it reads
with forward slashes, and what is behind the base is carried over as it reads so too.  A new base
without backslashes leaves nothing to be read otherwise the next time, so the new href begins with
the new base, and the exchange in the other direction finds behind it what was carried over.
-/

/-- The link may be touched, and with forward slashes it begins with the base. -/
def affects (base : Text) (exclusions : List Text) (link : Link) : Bool :=
  !Href.isSkipped exclusions link.href && (Href.slashed link.href).startsWith base

/-- The replacement of a link by what stands behind the old base, behind the new one. -/
def exchange (oldBase newBase : Text) (link : Link) : Replacement where
  line := link.line
  oldHref := link.href
  newHref := newBase ++ (Href.slashed link.href).drop oldBase.length
  start? := link.start?
  stop? := link.stop?
  kind? := some Replacement.pathSubstitution

variable {oldBase newBase : Text} {exclusions : List Text} {link : Link}

theorem treat_eq (oldBase newBase : Text) (exclusions : List Text) (link : Link) :
    treat oldBase newBase exclusions link =
      .ok { Treatment.none with
        replacement? :=
          if affects oldBase exclusions link then some (exchange oldBase newBase link)
          else none } := by
  unfold treat affects
  dsimp only
  cases Href.isSkipped exclusions link.href with
  | true => rfl
  | false =>
      cases (Href.slashed link.href).startsWith oldBase with
      | true => rfl
      | false => rfl

/-- The exchange comes to its end with one replacement for each link that it affects, in order. -/
theorem result_generate (oldBase newBase : Text) (exclusions : List Text) (links : List Link) :
    (generate oldBase newBase exclusions links).result =
      .ok ((links.filter (affects oldBase exclusions)).map (exchange oldBase newBase), []) := by
  unfold generate
  induction links with
  | nil => rfl
  | cons link rest inductionHypothesis =>
      rw [Generation.ofLinks, treat_eq]
      dsimp only
      rw [Generation.result_cons, inductionHypothesis]
      cases affected : affects oldBase exclusions link with
      | true =>
          rw [List.filter_cons_of_pos affected]
          rfl
      | false =>
          rw [List.filter_cons_of_neg (Bool.eq_false_iff.mp affected)]
          rfl

/-- A link that is affected keeps what stands behind the base. -/
theorem exists_remainder (affected : affects oldBase exclusions link = true) (newBase : Text) :
    ∃ rest, Href.slashed link.href = oldBase ++ rest ∧
      (exchange oldBase newBase link).newHref = newBase ++ rest := by
  rw [affects, Bool.and_eq_true, Text.startsWith_iff] at affected
  rcases affected with ⟨_, rest, begins⟩
  exact ⟨rest, begins.symm, by rw [exchange, ← begins, List.drop_left]⟩

/-- An exchanged link that may still be touched is affected by the exchange in the other
direction, which makes of it the href with forward slashes. -/
theorem exchange_back (affected : affects oldBase exclusions link = true)
    (forward : '\\' ∉ newBase)
    (unskipped : Href.isSkipped exclusions (exchange oldBase newBase link).newHref = false) :
    let turned : Link := { link with href := (exchange oldBase newBase link).newHref }
    affects newBase exclusions turned = true ∧
      (exchange newBase oldBase turned).newHref = Href.slashed link.href := by
  intro turned
  rcases exists_remainder affected newBase with ⟨rest, whole, written⟩
  have kept : Href.slashed turned.href = newBase ++ rest := by
    change Href.slashed (exchange oldBase newBase link).newHref = newBase ++ rest
    rw [written]
    refine Text.replaceChar_of_not_mem _ fun held => ?_
    rcases List.mem_append.mp held with inBase | behind
    · exact forward inBase
    · have absent : '\\' ∉ Href.slashed link.href := Text.not_mem_replaceChar (by decide) _
      rw [whole] at absent
      exact absent (List.mem_append_right _ behind)
  constructor
  · rw [affects, Bool.and_eq_true, Text.startsWith_iff, kept]
    exact ⟨by rw [unskipped]; rfl, rest, rfl⟩
  · rw [exchange, kept, List.drop_left, whole]

/-- The exchange makes one replacement of each link that may be touched and that, with forward
slashes, begins with the old base, in the order of the links and of no others: the new base stands
in place of the old one, and all that follows is kept.  If the new base has no backslash and the new
href may still be touched, the exchange in the other direction makes one replacement of the link
that reads so, back to the href with forward slashes. -/
theorem generate_exchanged (oldBase newBase : Text) (exclusions : List Text) (links : List Link) :
    let affected := links.filter (affects oldBase exclusions)
    (generate oldBase newBase exclusions links).result =
        .ok (affected.map (exchange oldBase newBase), []) ∧
      ∀ link ∈ affected,
        let replacement := exchange oldBase newBase link
        let turned : Link := { link with href := replacement.newHref }
        replacement.Copies link ∧
          (∃ rest, Href.slashed link.href = oldBase ++ rest ∧
            replacement.newHref = newBase ++ rest) ∧
          ('\\' ∉ newBase → Href.isSkipped exclusions replacement.newHref = false →
            ∃ back, (generate newBase oldBase exclusions [turned]).result = .ok ([back], []) ∧
              back.Copies turned ∧ back.newHref = Href.slashed link.href) := by
  intro affected
  refine ⟨result_generate _ _ _ _, fun link among => ?_⟩
  have held : affects oldBase exclusions link = true := (List.mem_filter.mp among).2
  intro replacement turned
  refine ⟨⟨rfl, rfl, rfl, rfl⟩, exists_remainder held newBase, fun forward unskipped => ?_⟩
  rcases exchange_back held forward unskipped with ⟨again, restored⟩
  refine ⟨exchange newBase oldBase turned, ?_, ⟨rfl, rfl, rfl, rfl⟩, restored⟩
  rw [result_generate, List.filter_cons_of_pos again, List.filter_nil, List.map_singleton]

/-- A link with a backslash, exchanged and brought back, between one that is excluded and one that
begins otherwise. -/
theorem generate_exchanged_backslash :
    let link (href : Text) : Link := { href, text := [], line := 1, start? := none, stop? := none }
    let links := [link "a/no.md", link "a\\b\\c.md#d", link "c.md"]
    let made := exchange "a/" "x/a/" (link "a\\b\\c.md#d")
    (generate "a/" "x/a/" ["a/no"] links).result = .ok ([made], []) ∧
      made.newHref = "x/a/b/c.md#d" ∧
      ∃ back, (generate "x/a/" "a/" ["a/no"] [link "x/a/b/c.md#d"]).result = .ok ([back], []) ∧
        back.newHref = "a/b/c.md#d" := by
  intro link links made
  rcases generate_exchanged "a/" "x/a/" ["a/no"] links with ⟨whole, each⟩
  have among : link "a\\b\\c.md#d" ∈ links.filter (affects "a/" ["a/no"]) := by decide +kernel
  rcases (each _ among).2.2 (by decide) (by decide +kernel) with ⟨back, came, _, restored⟩
  exact ⟨whole.trans (by decide +kernel), by decide +kernel, back, came, restored⟩

end Substitute
end Crosslink

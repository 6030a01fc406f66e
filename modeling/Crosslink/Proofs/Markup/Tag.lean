import Crosslink.Markup.Tag
import Mathlib.Data.List.Infix

namespace Crosslink
namespace Markup

/-!
Raw HTML is taken off the front of a text.  Every scan hands back what stands behind the construct,
and that is an end of the text it was given.
-/

theorem trimStart_suffix (text : Text) : text.trimStart <:+ text :=
  List.dropWhile_suffix _

theorem suffix_of_cons {c : Char} {rest text : Text} (ends : c :: rest <:+ text) : rest <:+ text :=
  (List.suffix_cons c rest).trans ends

theorem suffix_of_mem_afterUnquoted {text rest : Text} (member : rest ∈ afterUnquoted text) :
    rest <:+ text := by
  induction text with
  | nil => exact absurd member List.not_mem_nil
  | cons c behind inductionHypothesis =>
      rw [afterUnquoted] at member
      split at member
      · split at member
        · rw [List.mem_singleton.mp member]
          exact List.suffix_cons c behind
        · have longer {found : Text} (listed : found ∈ afterUnquoted behind)
              (deeper : found ∈ afterUnquoted behind → found <:+ behind) :
              found <:+ c :: behind :=
            (deeper listed).trans (List.suffix_cons c behind)
          split at member
          · split at member
            · rcases List.mem_append.mp member with listed | last
              · exact longer listed fun _ => inductionHypothesis listed
              · rw [List.mem_singleton.mp last]
                exact List.suffix_cons c _
            · exact longer member fun _ => inductionHypothesis member
          · exact longer member fun _ => inductionHypothesis member
      · exact absurd member List.not_mem_nil

theorem fromFirst_suffix (mark : Char) (text : Text) : Text.fromFirst mark text <:+ text :=
  List.dropWhile_suffix _

theorem suffix_of_mem_afterValue {text rest : Text} (member : rest ∈ afterValue text) :
    rest <:+ text := by
  have quoted {mark : Char} {inner behind : Text} {c : Char}
      (cut : Text.fromFirst mark inner = c :: behind) : behind <:+ mark :: inner :=
    (suffix_of_cons (cut ▸ fromFirst_suffix mark inner)).trans (List.suffix_cons mark inner)
  unfold afterValue at member
  split at member
  · split at member
    · next cut =>
        rw [List.mem_singleton.mp member]
        exact quoted cut
    · exact absurd member List.not_mem_nil
  · split at member
    · next cut =>
        rw [List.mem_singleton.mp member]
        exact quoted cut
    · exact absurd member List.not_mem_nil
  · exact suffix_of_mem_afterUnquoted member

theorem suffix_of_mem_afterAttributeName {text rest : Text}
    (member : rest ∈ afterAttributeName text) : rest <:+ text := by
  unfold afterAttributeName at member
  split at member
  · next value opens =>
      rcases List.mem_append.mp member with listed | last
      · have inner : value <:+ text := suffix_of_cons (opens ▸ trimStart_suffix text)
        exact (suffix_of_mem_afterValue listed).trans ((trimStart_suffix value).trans inner)
      · rw [List.mem_singleton.mp last]
  · rw [List.mem_singleton.mp member]

theorem suffix_of_tagClose? {text rest : Text} (closed : tagClose? text = some rest) :
    rest <:+ text := by
  have trimmed := trimStart_suffix text
  unfold tagClose? at closed
  split at closed
  · next opens =>
      cases closed
      exact suffix_of_cons (suffix_of_cons (opens ▸ trimmed))
  · next opens =>
      cases closed
      exact suffix_of_cons (opens ▸ trimmed)
  · cases closed

theorem suffix_of_attributesEnd? {most : Nat} {text rest : Text}
    (closed : attributesEnd? most text = some rest) : rest <:+ text := by
  induction most generalizing text with
  | zero => exact suffix_of_tagClose? closed
  | succ most inductionHypothesis =>
      unfold attributesEnd? at closed
      split at closed
      · next b behind c name opens =>
          split at closed
          · rcases List.exists_of_findSome?_eq_some closed with ⟨after, listed, found⟩
            have inner : name <:+ b :: behind :=
              suffix_of_cons (opens ▸ trimStart_suffix (b :: behind))
            exact (inductionHypothesis found).trans
              ((suffix_of_mem_afterAttributeName listed).trans
                ((List.dropWhile_suffix _).trans inner))
          · exact suffix_of_tagClose? closed
      · cases closed

theorem suffix_of_openTag? {text rest : Text} (closed : openTag? text = some rest) :
    rest <:+ text := by
  unfold openTag? at closed
  split at closed
  · next c behind =>
      split at closed
      · exact (suffix_of_attributesEnd? closed).trans ((List.dropWhile_suffix _).trans
          ((List.suffix_cons c behind).trans (List.suffix_cons '<' _)))
      · cases closed
  · cases closed

theorem suffix_of_closeTag? {text rest : Text} (closed : closeTag? text = some rest) :
    rest <:+ text := by
  unfold closeTag? at closed
  split at closed
  · next c behind =>
      split at closed
      · split at closed
        · next opens =>
            cases closed
            have inner := suffix_of_cons (opens ▸ trimStart_suffix (behind.dropWhile isTagNameChar))
            exact inner.trans ((List.dropWhile_suffix _).trans ((List.suffix_cons c behind).trans
              ((List.suffix_cons '/' _).trans (List.suffix_cons '<' _))))
        · cases closed
      · cases closed
  · cases closed

theorem suffix_of_commentEnd? {text rest : Text} (closed : commentEnd? text = some rest) :
    rest <:+ text := by
  fun_induction commentEnd? text with
  | case1 behind =>
      cases closed
      exact List.suffix_append ['-', '-', '>'] _
  | case2 c behind other inductionHypothesis =>
      exact (inductionHypothesis closed).trans (List.suffix_append ['-', '-', c] _)
  | case3 => cases closed
  | case4 c behind _ _ inductionHypothesis =>
      exact (inductionHypothesis closed).trans (List.suffix_append ['-', c] _)
  | case5 => cases closed
  | case6 c behind _ _ _ _ inductionHypothesis =>
      exact (inductionHypothesis closed).trans (List.suffix_cons c behind)
  | case7 => cases closed

theorem suffix_of_behind? {mark text rest : Text} (found : behind? mark text = some rest) :
    rest <:+ text := by
  rcases Option.map_eq_some_iff.mp found with ⟨position, _, made⟩
  exact made ▸ List.drop_suffix _ _

theorem suffix_of_specialTag? {text rest : Text} (closed : specialTag? text = some rest) :
    rest <:+ text := by
  unfold specialTag? at closed
  split at closed
  · next behind =>
      have opened : behind <:+ '<' :: '!' :: '-' :: '-' :: behind :=
        List.suffix_append ['<', '!', '-', '-'] behind
      split at closed
      · cases closed
        exact suffix_of_cons opened
      · cases closed
        exact suffix_of_cons (suffix_of_cons opened)
      · exact (suffix_of_commentEnd? closed).trans opened
  · next behind =>
      exact (suffix_of_behind? closed).trans (List.suffix_append ['<', '?'] behind)
  · next c behind _ =>
      have opened : c :: behind <:+ '<' :: '!' :: c :: behind :=
        List.suffix_append ['<', '!'] (c :: behind)
      split at closed
      · exact (suffix_of_behind? closed).trans (suffix_of_cons opened)
      · split at closed
        · exact (suffix_of_behind? closed).trans ((List.drop_suffix _ _).trans opened)
        · cases closed
  · cases closed

/-- What stands behind raw HTML is an end of the text. -/
theorem suffix_of_rawTag? {text rest : Text} (closed : rawTag? text = some rest) :
    rest <:+ text := by
  unfold rawTag? at closed
  split at closed
  · next opened =>
      cases closed
      exact suffix_of_openTag? opened
  · split at closed
    · next ended =>
        cases closed
        exact suffix_of_closeTag? ended
    · exact suffix_of_specialTag? closed

end Markup
end Crosslink

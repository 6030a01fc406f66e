import Crosslink.Proofs.Markup.Inline.Skip
import Crosslink.Proofs.Text.Pieces

namespace Crosslink
namespace Markup

/-!
Automatic links.  The text between the brackets is the href of an automatic link as it stands,
or a mail address that the href names behind its scheme.  An address holds neither blanks nor
colons, so it cannot stand where its own href stands.
-/

/-- An href that leads to the mail address which a stretch begins with. -/
structure Mails (raw href address : Text) : Prop where
  begins : address <+: raw
  leads : ("mailto:" : Text) ++ address <+: href
  at_mem : '@' ∈ address
  graphic : ∀ c ∈ address, isBlank c = false ∧ c ≠ ':'

/-- An address and the href that leads to it do not begin at the same place. -/
theorem Mails.not_prefix {raw href address text : Text} (mails : Mails raw href address)
    (here : address <+: text) : ¬ href <+: text := by
  intro spelled
  have longer := mails.leads.trans spelled
  rcases Nat.lt_or_ge address.length 7 with short | long
  · have inScheme : address <+: ("mailto:" : Text) ++ address :=
      List.prefix_of_prefix_length_le here longer (by rw [List.length_append]; omega)
    have whole := List.prefix_of_prefix_length_le inScheme
      (List.prefix_append ("mailto:" : Text) address) (by simp; omega)
    exact absurd (whole.subset mails.at_mem) (by decide)
  · have scheme : ("mailto:" : Text) <+: address :=
      List.prefix_of_prefix_length_le ((List.prefix_append _ _).trans longer) here (by simpa)
    exact (mails.graphic ':' (scheme.subset (by decide))).2 rfl

private theorem graphic_of_alphanumeric {c : Char}
    (held : isAsciiLetter c = true ∨ isAsciiDigit c = true) : isBlank c = false ∧ c ≠ ':' := by
  have bounds : 0x20 < c.toNat ∧ c.toNat < 0x7F ∧ c.toNat ≠ 0x3A := by
    have value : c.toNat = c.val.toNat := rfl
    simp only [isAsciiLetter, isAsciiDigit, Bool.or_eq_true, Bool.and_eq_true, decide_eq_true_eq,
      Char.le_def, UInt32.le_iff_toNat_le] at held
    change (97 ≤ c.val.toNat ∧ c.val.toNat ≤ 122 ∨ 65 ≤ c.val.toNat ∧ c.val.toNat ≤ 90) ∨
      48 ≤ c.val.toNat ∧ c.val.toNat ≤ 57 at held
    omega
  refine ⟨?_, fun same => bounds.2.2 (congrArg Char.toNat same)⟩
  rw [isBlank, inRanges, blankRanges]
  simp only [List.any_cons, List.any_nil, Bool.or_false, Bool.or_eq_false_iff,
    Bool.and_eq_false_iff, decide_eq_false_iff_not]
  omega

private theorem graphic_of_mailboxChar {c : Char} (held : isMailboxChar c = true) :
    isBlank c = false ∧ c ≠ ':' := by
  have marks : (".!#$%&'*+/=?^_\x60\x7b|\x7d~-" : Text).all
      (fun mark => !isBlank mark && mark != ':') = true := by
    decide
  rw [isMailboxChar, Bool.or_eq_true, Bool.or_eq_true, List.contains_iff_mem] at held
  rcases held with alphanumeric | mark
  · exact graphic_of_alphanumeric alphanumeric
  · rcases Bool.and_eq_true_iff.mp (List.all_eq_true.mp marks c mark) with ⟨graphic, other⟩
    exact ⟨Bool.not_eq_eq_eq_not.mp graphic, bne_iff_ne.mp other⟩

private theorem graphic_of_domain {domain : Text}
    (labels : (Text.splitOn '.' domain).all isDomainLabel = true) {c : Char} (held : c ∈ domain) :
    isBlank c = false ∧ c ≠ ':' := by
  have joined := Text.join_splitOn '.' domain
  rw [← joined] at held
  rcases Text.mem_join held with dot | ⟨label, listed, inLabel⟩
  · exact List.mem_singleton.mp dot ▸ by decide
  · have accepted := List.all_eq_true.mp labels label listed
    simp only [isDomainLabel, Bool.and_eq_true] at accepted
    have each := List.all_eq_true.mp accepted.1.1.2 c inLabel
    rw [Bool.or_eq_true, Bool.or_eq_true, decide_eq_true_iff] at each
    rcases each with alphanumeric | hyphen
    · exact graphic_of_alphanumeric alphanumeric
    · exact hyphen ▸ by decide

private theorem isPrefix_dropFinalBreak (text : Text) : dropFinalBreak text <+: text := by
  unfold dropFinalBreak
  split
  · exact List.dropLast_prefix text
  · exact List.prefix_rfl

/-- A mail address is all that is spelled, up to a line break at its end. -/
theorem exists_mails {spelled : Text} (accepted : isMailAddress spelled = true) :
    ∃ address, Mails spelled (("mailto:" : Text) ++ spelled) address := by
  have cut : spelled = spelled.takeWhile isMailboxChar ++
      spelled.drop (spelled.takeWhile isMailboxChar).length :=
    (List.prefix_iff_eq_append.mp (List.takeWhile_prefix _)).symm
  rw [isMailAddress, Bool.and_eq_true] at accepted
  split at accepted
  · next domain behind =>
      rw [behind] at cut
      refine ⟨spelled.takeWhile isMailboxChar ++ '@' :: dropFinalBreak domain, ?_⟩
      have begins : spelled.takeWhile isMailboxChar ++ '@' :: dropFinalBreak domain <+: spelled := by
        conv => rhs; rw [cut]
        exact (List.prefix_append_right_inj _).mpr
          ((List.prefix_cons_inj '@').mpr (isPrefix_dropFinalBreak domain))
      constructor
      case begins => exact begins
      case leads => exact (List.prefix_append_right_inj _).mpr begins
      case at_mem => exact List.mem_append_right _ List.mem_cons_self
      case graphic =>
        intro c held
        rcases List.mem_append.mp held with inMailbox | behindMailbox
        · exact graphic_of_mailboxChar (List.mem_takeWhile_imp inMailbox)
        · rcases List.mem_cons.mp behindMailbox with rfl | inDomain
          · decide
          · exact graphic_of_domain accepted.2 inDomain
  · exact absurd accepted.2 (by decide)

/-- An address on the web begins with a letter. -/
theorem writes_of_isUri {spelled : Text} (accepted : isUri spelled = true) :
    Writes spelled spelled where
  length_le := Nat.le_refl _
  visible := by
    intro _
    cases spelled with
    | nil => cases accepted
    | cons c rest =>
        rw [isUri, Bool.and_eq_true, Bool.and_eq_true, Bool.and_eq_true] at accepted
        have graphic := (graphic_of_alphanumeric (Or.inl accepted.1.1.1)).1
        have notBreak : (c != '\n') = true := by
          rw [bne_iff_ne]
          rintro rfl
          cases graphic
        refine ⟨c, ?_, graphic⟩
        rw [Text.before, List.takeWhile_cons, if_pos notBreak]
        exact List.mem_cons_self
  returns _ _ same absent _ := absurd (same ▸ by simp) absent

namespace Scene

/-- An automatic link is read from what stands between its brackets. -/
theorem autolink?_eq_some {scene : Scene} {position : Nat} {autolink : Autolink}
    (found : scene.autolink? position = some autolink) :
    ∃ behind, position + 1 ≤ behind ∧ behind < scene.stop ∧
      position + autolink.spelled.length + 2 = behind + 1 ∧
      (Writes (scene.source.between (position + 1) behind) autolink.href ∨
        ∃ address, Mails (scene.source.between (position + 1) behind) autolink.href address) := by
  unfold autolink? at found
  rcases Option.bind_eq_some_iff.mp found with ⟨spelled, between, made⟩
  rcases scene.angled?_eq_some between with ⟨behind, ahead, inside, rfl, closes⟩
  have size := (Array.getElem?_eq_some_iff.mp closes).1
  have length : (scene.source.between (position + 1) behind).length = behind - (position + 1) := by
    rw [Source.between_eq, List.length_drop, List.length_take, Array.length_toList]
    omega
  split at made
  · next accepted =>
      cases made
      exact ⟨behind, ahead, inside, by dsimp only; omega, Or.inl (writes_of_isUri accepted)⟩
  · split at made
    · next accepted =>
        cases made
        exact ⟨behind, ahead, inside, by dsimp only; omega, Or.inr (exists_mails accepted)⟩
    · cases made

end Scene
end Markup
end Crosslink

import Crosslink.Proofs.Link.Redirected
import Crosslink.Proofs.Revision.Repair
import Crosslink.Proofs.Revision.Step

namespace Crosslink
namespace Check

/-!
What a check finds of a link.  A link leads somewhere, or it can be repaired with a variant that
does, or it is reported; a check without reports leaves links of the first two kinds only.  A
repaired link leads somewhere, so of the links that a check leaves behind it is those that are
still up for repair that lead nowhere.  That the links of a revised text are the old ones and their
repairs is sure where each repair puts one plain word in the place of another.
-/

variable {present : Text → Except Failure Bool} {cwd : Text} {rules : Rules} {file : Text}
variable {lines : List Text} {link : Link} {treatment : Treatment} {href candidate : Text}

/-- A link that leads somewhere is not up for repair. -/
theorem Leads.not_repairable (leads : Leads present cwd rules file href) :
    ¬ Repairable present cwd rules file href candidate := by
  intro repairable
  have there : TargetIs present cwd rules file true href := leads repairable.unskipped
  cases there.unique repairable.missing

/-- A link that is not reported leads somewhere or can be repaired. -/
theorem leads_or_repairable (treated : treat present cwd rules file lines link = .ok treatment)
    (unreported : treatment.broken? = none) :
    Leads present cwd rules file link.href ∨
      ∃ candidate, Repairable present cwd rules file link.href candidate := by
  rcases classified_of_treat treated with ⟨cls, falls, emits⟩
  cases cls with
  | skipped => exact Or.inl fun unskipped => nomatch falls.symm.trans unskipped
  | sound => exact Or.inl fun _ => falls.2
  | repairable => exact Or.inr falls
  | lost =>
      rcases emits.2 with ⟨broken, reported, _⟩
      cases unreported.symm.trans reported

/-! ## Texts without reports -/

/-- Where nothing is reported, each link leads somewhere or can be repaired. -/
theorem leads_or_repairable_of_result {links : List Link} {replacements : List Replacement}
    (made : (generate present cwd rules file lines links).result = .ok (replacements, []))
    (member : link ∈ links) :
    Leads present cwd rules file link.href ∨
      ∃ candidate, Repairable present cwd rules file link.href candidate := by
  rcases Generation.treatment_of_mem made member with ⟨treatment, treated, listed⟩
  refine leads_or_repairable treated ?_
  cases reported : treatment.broken? with
  | none => rfl
  | some broken => exact absurd (listed broken reported) List.not_mem_nil

/-! ## Links after a repair -/

/-- What a checked text may hold after the check: a link as it was, or what is written for it. -/
inductive Stems (present : Text → Except Failure Bool) (cwd : Text) (rules : Rules) (file : Text)
    (links : List Link) : Text → Prop
  /-- The link is one of those that were checked. -/
  | kept {origin : Link} (member : origin ∈ links) : Stems present cwd rules file links origin.href
  /-- The link is the repair of one of them. -/
  | mended {origin : Link} {candidate : Text} (member : origin ∈ links)
      (undotted : ∀ folder ∈ rules.folders, folder.startsWith ['.'] = false)
      (noQuestion : '?' ∉ origin.href) (noBackslash : '\\' ∉ origin.href)
      (repairable : Repairable present cwd rules file origin.href candidate) :
      Stems present cwd rules file links (mended cwd rules file origin.href candidate)

/-- A link that stems from checked links, none of which was reported, leads somewhere unless it is
up for repair. -/
theorem Stems.leads_iff {links : List Link} (rooted : Path.isAbsolute rules.root = true)
    (absolute : Path.isAbsolute file = true)
    (checked : ∀ link ∈ links, Leads present cwd rules file link.href ∨
      ∃ candidate, Repairable present cwd rules file link.href candidate)
    (stems : Stems present cwd rules file links href) :
    Leads present cwd rules file href ↔
      ∀ candidate, ¬ Repairable present cwd rules file href candidate := by
  constructor
  · exact fun leads _ => leads.not_repairable
  · intro unrepairable
    cases stems with
    | kept member =>
        rcases checked _ member with leads | ⟨candidate, repairable⟩
        · exact leads
        · exact absurd repairable (unrepairable candidate)
    | mended _ undotted noQuestion noBackslash repairable =>
        exact fun _ => targetIs_mended rooted absolute undotted noQuestion noBackslash repairable

/-- A replacement is the repair of a link. -/
structure Repairs (present : Text → Except Failure Bool) (cwd : Text) (rules : Rules) (file : Text)
    (replacement : Replacement) (link : Link) : Prop where
  copies : replacement.Copies link
  kind : replacement.kind = Replacement.patched
  repairable : ∃ candidate, Repairable present cwd rules file link.href candidate ∧
    replacement.newHref = mended cwd rules file link.href candidate

/-- The replacements of a check repair links, each of them one of its own. -/
theorem exists_origins (present : Text → Except Failure Bool) (cwd : Text) (rules : Rules)
    (file : Text) (lines : List Text) (links : List Link) :
    ∃ origins : List Link, origins.Sublist links ∧
      List.Forall₂ (Repairs present cwd rules file)
        (generate present cwd rules file lines links).replacements origins := by
  have governed := governed_treat present cwd rules file lines
  rcases Generation.exists_origins (fun _ => true) (Repairs present cwd rules file)
      (fun link treatment replacement treated written => by
        rcases exists_repairable treated written with ⟨candidate, repairable, newHref, kind⟩
        exact ⟨rfl, governed.copies rules.exclusions link treatment replacement treated written, kind,
          candidate, repairable, newHref⟩) links with ⟨origins, among, repairs⟩
  rw [List.filter_true] at among
  exact ⟨origins, among, repairs⟩

/-- Every repair of a text puts a plain word without a query in the place of another one, and names
of docs folders do not begin with a dot. -/
structure PlainlyRepaired (present : Text → Except Failure Bool) (cwd : Text) (rules : Rules)
    (file content : Text) : Prop where
  clear : content.Clear
  undotted : ∀ folder ∈ rules.folders, folder.startsWith ['.'] = false
  tame : ∀ replacement ∈
      (generate present cwd rules file content.splitLines (extractLinks content)).replacements,
    '?' ∉ replacement.oldHref ∧ ∃ placed, Edit.Placed.of? replacement = some placed ∧
      placed.Tame content

/-- The links of a text with plain repairs stem from those that were checked. -/
theorem PlainlyRepaired.stems {content : Text} {replacements : List Replacement}
    (plainly : PlainlyRepaired present cwd rules file content)
    (made : (generate present cwd rules file content.splitLines (extractLinks content)).replacements =
      replacements) (window : Int) :
    ∀ link ∈ extractLinks (Edit.apply window content replacements).content,
      Stems present cwd rules file (extractLinks content) link.href := by
  subst made
  rcases exists_origins present cwd rules file content.splitLines (extractLinks content) with
    ⟨origins, among, repairs⟩
  have redirected := Link.redirected_of_copies window (repairs.imp fun _ _ repair => repair.copies)
    among plainly.clear fun replacement asked => (plainly.tame replacement asked).2
  intro link member
  rcases Link.exists_origin redirected.flip member with ⟨origin, listed, changed⟩
  rcases changed.href with same | ⟨replacement, asked, old, new⟩
  · exact same ▸ .kept listed
  · rcases Link.exists_origin repairs asked with ⟨source, inOrigins, repair⟩
    rcases repair.repairable with ⟨candidate, repairable, written⟩
    rcases plainly.tame replacement asked with ⟨noQuestion, placed, found, calm⟩
    have noBackslash : '\\' ∉ replacement.oldHref := by
      rw [← Edit.Placed.replacement_of? found]
      exact fun held => nomatch calm.old _ held
    rw [repair.copies.oldHref] at noQuestion noBackslash
    rw [← new, written]
    exact .mended (among.subset inOrigins) plainly.undotted noQuestion noBackslash repairable

/-- A link that leads past the docs folder that its target is in is repaired plainly. -/
example :
    PlainlyRepaired (Files.present (Store.ofFiles "/" [("/d/docs/b.md", [])] [])) "/"
      { root := "/d", folders := ["docs"], exclusions := [] } "/d/docs/a/c.md"
      "[b](../../b.md)" where
  clear := Text.clear_of_isClear (by decide +kernel)
  undotted := by decide
  tame := by
    have made : (generate (Files.present (Store.ofFiles "/" [("/d/docs/b.md", [])] [])) "/"
        { root := "/d", folders := ["docs"], exclusions := [] } "/d/docs/a/c.md"
        (Text.splitLines "[b](../../b.md)") (extractLinks "[b](../../b.md)")).replacements =
      [{ line := 1, oldHref := "../../b.md", newHref := "../b.md", start? := some 4, stop? := some 14
         kind? := some Replacement.patched }] := by decide +kernel
    intro replacement asked
    cases List.mem_singleton.mp (made ▸ asked)
    exact ⟨by decide, { start := 4, stop := 14, replacement := _ }, rfl,
      Edit.Placed.isTame_iff.mp (by decide +kernel)⟩

/-- What a check that reports nothing tells of a text, as it was and as it is left. -/
structure Settled (present : Text → Except Failure Bool) (cwd : Text) (rules : Rules)
    (file before after : Text) : Prop where
  /-- Each link of the text as it was leads somewhere or can be repaired. -/
  each : ∀ link ∈ extractLinks before, Leads present cwd rules file link.href ∨
    ∃ candidate, Repairable present cwd rules file link.href candidate
  /-- Where the text is left as it was, a link leads somewhere unless it is still up for repair. -/
  unchanged : after = before → ∀ link ∈ extractLinks after,
    (Leads present cwd rules file link.href ↔
      ∀ candidate, ¬ Repairable present cwd rules file link.href candidate)
  /-- Where it was revised, so does a link that stems from the links of the text as it was. -/
  left : ∀ link ∈ extractLinks after,
    Stems present cwd rules file (extractLinks before) link.href →
    (Leads present cwd rules file link.href ↔
      ∀ candidate, ¬ Repairable present cwd rules file link.href candidate)
  /-- Where the repairs are plain, every link does. -/
  stems : PlainlyRepaired present cwd rules file before → ∀ link ∈ extractLinks after,
    Stems present cwd rules file (extractLinks before) link.href

/-- A text whose check reports nothing is settled, whether it is left as it was or as the repairs
leave it. -/
theorem settled_of_revise {σ : Type} [Files σ] {files : σ} {before after : Text}
    {outcome : Edit.Outcome} (rooted : Path.isAbsolute rules.root = true)
    (absolute : Path.isAbsolute file = true)
    (revised : Batch.revise (Batch.checking cwd rules files file) before = .ok (outcome, []))
    (leaves : after = before ∨ after = outcome.content) :
    Settled (Files.present files) cwd rules file before after := by
  rcases Batch.revise_eq_ok_iff.mp revised with ⟨replacements, made, applied⟩
  have each : ∀ link ∈ extractLinks before, Leads (Files.present files) cwd rules file link.href ∨
      ∃ candidate, Repairable (Files.present files) cwd rules file link.href candidate :=
    fun link member => leads_or_repairable_of_result made member
  refine ⟨each, ?_, fun link _ stems => stems.leads_iff rooted absolute each, ?_⟩
  · intro same link member
    exact Stems.leads_iff rooted absolute each (.kept (same ▸ member))
  · intro plainly link member
    rcases leaves with same | revision
    · exact .kept (same ▸ member)
    · rw [revision, ← applied] at member
      exact plainly.stems (Generation.result_eq_ok made).1 Edit.defaultWindow link member

end Check
end Crosslink

import Crosslink.Files.Store
import Crosslink.Proofs.Link.Target
import Crosslink.Proofs.Revision.Classes

namespace Crosslink
namespace Check

/-!
A repaired link is read again.  A link that begins with a dot is followed from the directory
of its file, unless a docs folder has such a name; the variant that repairs it begins with a
dot, and so does the path that is written for it.  So the new link leads to where the variant
leads, which is there.
-/

variable {present : Text → Except Failure Bool} {cwd file href candidate : Text} {rules : Rules}
variable {link : Link} {lines : List Text}

/-! ## Links that lead somewhere -/

/-- The link is one that no revision may touch, or its target is there. -/
def Leads (present : Text → Except Failure Bool) (cwd : Text) (rules : Rules) (file href : Text) :
    Prop :=
  Href.isSkipped rules.exclusions href = false →
    ∃ target, Target.path? cwd rules.folders rules.root file (Href.withoutAnchor href) =
      .ok target ∧ present target = .ok true

/-- Nothing is made of a link that leads somewhere. -/
theorem generate_of_leads (lines : List Text) (leads : Leads present cwd rules file link.href) :
    (generate present cwd rules file lines [link]).result = .ok ([], []) := by
  apply Generation.result_singleton_eq_nil_iff.mpr
  cases skipped : Href.isSkipped rules.exclusions link.href with
  | true =>
      have falls : Falls present cwd rules file link.href .skipped := skipped
      exact exists_treat lines falls
  | false =>
      have falls : Falls present cwd rules file link.href .sound := ⟨skipped, leads skipped⟩
      exact exists_treat lines falls

theorem exists_repairable {replacement : Replacement} {treatment : Treatment}
    (treated : treat present cwd rules file lines link = .ok treatment)
    (written : treatment.replacement? = some replacement) :
    ∃ candidate, Repairable present cwd rules file link.href candidate ∧
      replacement.newHref = mended cwd rules file link.href candidate ∧
      replacement.kind = Replacement.patched := by
  rcases classified_of_treat treated with ⟨cls, _, emits⟩
  cases cls with
  | skipped | sound | lost => cases emits.1.symm.trans written
  | repairable =>
      rcases emits.2 with ⟨other, candidate, replaces, _, kind, repairable, newHref⟩
      cases replaces.symm.trans written
      exact ⟨candidate, repairable, newHref, by rw [Replacement.kind, kind]; rfl⟩

/-! ## Reading a repaired link -/

/-- The path that is written for a link that begins with a dot begins with a dot. -/
theorem startsWith_keepDot {href : Text} (dotted : href.startsWith ['.'] = true) (path : Text) :
    (keepDot href path).startsWith ['.'] = true := by
  unfold keepDot
  cases dot : path.startsWith ['.'] with
  | true =>
      rw [dotted]
      exact dot
  | false =>
      rw [dotted]
      rfl

@[simp] theorem follow_keepDot (href path : Text) (start : List Text) :
    Path.follow start (keepDot href path) = Path.follow start path := by
  unfold keepDot
  split
  · exact Path.follow_here_cons start path
  · rfl

/-- A dot that is kept brings a dot and a slash, and nothing else. -/
theorem mem_keepDot {path : Text} {c : Char} (held : c ∈ keepDot href path) :
    c = '.' ∨ c = '/' ∨ c ∈ path := by
  unfold keepDot at held
  split at held
  · rcases List.mem_cons.mp held with dot | behind
    · exact Or.inl dot
    · exact Or.inr (List.mem_cons.mp behind)
  · exact Or.inr (Or.inr held)

/-- The parts of a variant of a link without a query. -/
theorem split_of_no_query {candidate : Text} (noQuestion : '?' ∉ candidate) :
    (Href.split candidate).path = Href.withoutAnchor candidate ∧
      (Href.split candidate).query = [] := by
  have absent : '?' ∉ Href.withoutAnchor candidate := fun held =>
    noQuestion (Text.mem_of_mem_before held)
  exact ⟨Text.before_of_not_mem absent, Text.fromFirst_of_not_mem absent⟩

/-- A repaired link leads to where the variant leads, from the directory of its file. -/
theorem path_keepDot (cwd : Text) (rooted : Path.isAbsolute rules.root = true)
    (absolute : Path.isAbsolute file = true)
    (undotted : ∀ folder ∈ rules.folders, folder.startsWith ['.'] = false) {href written : Text}
    (dottedHref : href.startsWith ['.'] = true) (dotted : written.startsWith ['.'] = true)
    (plain : Href.Plain written) :
    Href.Plain (keepDot href (Path.relativeHref cwd (Path.hostDir file)
        (Target.path cwd rules.folders rules.root file written))) ∧
      Target.path cwd rules.folders rules.root file
          (keepDot href (Path.relativeHref cwd (Path.hostDir file)
            (Target.path cwd rules.folders rules.root file written))) =
        Target.path cwd rules.folders rules.root file written := by
  have hostAbsolute := Path.isAbsolute_hostDir absolute
  have targetAbsolute : Path.isAbsolute (Target.path cwd rules.folders rules.root file written) =
      true := Target.isAbsolute_path cwd rooted absolute written
  have led := Target.place_path_of_dotted cwd rooted absolute undotted plain dotted
  have relative := Target.relativeHref_of_follow cwd hostAbsolute targetAbsolute plain led
  have plainNew : Href.Plain (keepDot href (Path.relativeHref cwd (Path.hostDir file)
      (Target.path cwd rules.folders rules.root file written))) := by
    intro c held
    rcases mem_keepDot held with dot | slash | inPath
    · rw [dot]
      decide
    · rw [slash]
      decide
    · exact relative.1 c inPath
  refine ⟨plainNew, ?_⟩
  apply Target.path_inj rooted absolute
  rw [Target.place_path_of_dotted cwd rooted absolute undotted plainNew
    (startsWith_keepDot dottedHref _), follow_keepDot, relative.2]

/-- What is written for a link that can be repaired has a target that is there. -/
theorem targetIs_mended (rooted : Path.isAbsolute rules.root = true)
    (absolute : Path.isAbsolute file = true)
    (undotted : ∀ folder ∈ rules.folders, folder.startsWith ['.'] = false)
    (noQuestion : '?' ∉ href) (noBackslash : '\\' ∉ href)
    (repairable : Repairable present cwd rules file href candidate) :
    TargetIs present cwd rules file true (mended cwd rules file href candidate) := by
  rcases Variant.of_findM?_eq_some repairable.found with ⟨member, there⟩
  rcases Variant.mem_candidates member with ⟨dottedHref, count, spelled⟩
  have characters : ∀ c ∈ candidate, c ≠ '\\' ∧ c ≠ '?' := by
    intro c held
    rw [spelled] at held
    rcases Variant.mem_dropping held with dot | slash | inHref
    · rw [dot]
      decide
    · rw [slash]
      decide
    · exact ⟨fun same => noBackslash (same ▸ inHref), fun same => noQuestion (same ▸ inHref)⟩
  rcases split_of_no_query fun held => (characters _ held).2 rfl with ⟨written, queryless⟩
  have plain : Href.Plain (Href.withoutAnchor candidate) :=
    written ▸ Href.plain_path fun held => (characters _ held).1 rfl
  have dotted : (Href.withoutAnchor candidate).startsWith ['.'] = true := by
    rw [spelled]
    exact Variant.startsWith_withoutAnchor_dotted _
  rcases path_keepDot cwd rooted absolute undotted dottedHref dotted plain with ⟨plainNew, leads⟩
  have read : Href.withoutAnchor (mended cwd rules file href candidate) =
      keepDot href (Path.relativeHref cwd (Path.hostDir file)
        (Target.path cwd rules.folders rules.root file (Href.withoutAnchor candidate))) := by
    rw [mended, written, queryless, List.append_nil]
    exact plainNew.withoutAnchor_append (Href.isAnchor_split candidate)
  rw [TargetIs, read]
  refine ⟨_, if_neg ?_, ?_⟩
  · intro empty
    have begins := startsWith_keepDot dottedHref (Path.relativeHref cwd (Path.hostDir file)
      (Target.path cwd rules.folders rules.root file (Href.withoutAnchor candidate)))
    rw [List.isEmpty_iff.mp empty] at begins
    cases begins
  · rw [leads, Target.path_withoutAnchor]
    exact there

/-- Repairs converge.  When no name of a docs folder begins with a dot, a link that has been
repaired leads to something that is there, and the next check has nothing to say about it. -/
theorem generate_repaired (store : Store) (cwd : Text) (rules : Rules) (file : Text)
    (lines again : List Text) (link : Link) (replacement : Replacement)
    (rooted : Path.isAbsolute rules.root = true) (absolute : Path.isAbsolute file = true)
    (undotted : ∀ folder ∈ rules.folders, folder.startsWith ['.'] = false)
    (noQuestion : '?' ∉ link.href) (noBackslash : '\\' ∉ link.href)
    (emitted : replacement ∈
      (generate (Files.present store) cwd rules file lines [link]).replacements) :
    (∃ target, Target.path? cwd rules.folders rules.root file
          (Href.withoutAnchor replacement.newHref) = .ok target ∧ store.present target = true) ∧
      (generate (Files.present store) cwd rules file again
        [{ link with href := replacement.newHref }]).result = .ok ([], []) := by
  rcases Generation.mem_replacements_singleton.mp emitted with ⟨treatment, treated, written⟩
  rcases exists_repairable treated written with ⟨candidate, repairable, newHref, _⟩
  have leads : TargetIs (Files.present store) cwd rules file true replacement.newHref := by
    rw [newHref]
    exact targetIs_mended rooted absolute undotted noQuestion noBackslash repairable
  rcases leads with ⟨target, led, there⟩
  have present : store.present target = true := Except.ok.inj there
  exact ⟨⟨target, led, present⟩, generate_of_leads again fun _ => ⟨target, led, there⟩⟩

/-- A link that climbs one directory too far, and its repair. -/
theorem generate_repaired_one_up :
    (∃ target, Target.path? "/" ["docs"] "/dataset" "/dataset/docs/a.md"
          (Href.withoutAnchor "../b.md#top") = .ok target ∧
        (Store.ofFiles "/" [("/dataset/b.md", [])] []).present target = true) ∧
      (generate (Files.present (Store.ofFiles "/" [("/dataset/b.md", [])] [])) "/"
        { folders := ["docs"], root := "/dataset", exclusions := [] } "/dataset/docs/a.md" []
        [{ href := "../b.md#top", text := [], line := 1, start? := none, stop? := none }]).result =
          .ok ([], []) :=
  generate_repaired _ "/" { folders := ["docs"], root := "/dataset", exclusions := [] }
    "/dataset/docs/a.md" [] []
    { href := "../../b.md#top", text := [], line := 1, start? := none, stop? := none }
    { line := 1, oldHref := "../../b.md#top", newHref := "../b.md#top", start? := none
      stop? := none, kind? := some Replacement.patched }
    (by decide) (by decide) (by decide) (by decide) (by decide) (by decide +kernel)

end Check
end Crosslink

import Crosslink.Link.Survey
import Crosslink.Proofs.Edit.Misses
import Crosslink.Proofs.Files.Address
import Crosslink.Proofs.Link.Apart
import Crosslink.Proofs.Revision.Linkwise
import Crosslink.Proofs.Revision.Verdict

namespace Crosslink

/-!
Where links go whose target is missing.  A check reports such a link or asks for an edit that
repairs it, and the edit is made or left out.  So the links that are patched and those that are
reported fall short of the links whose target is missing by just the edits that were left out;
where hrefs stand on one line, only links that were found without a range are lost in this way.
-/

namespace Generation

variable {treat : Link → Except Failure Treatment}

/-- Where each link of some sort is replaced or reported, and no other link is, there are as many
replacements and reports as links of that sort. -/
theorem length_result {counts : Link → Bool}
    (once : ∀ link treatment, treat link = .ok treatment →
      treatment.replacement?.toList.length + treatment.broken?.toList.length =
        if counts link then 1 else 0)
    {links : List Link} {replacements : List Replacement} {broken : List BrokenLink}
    (made : (ofLinks treat links).result = .ok (replacements, broken)) :
    replacements.length + broken.length = links.countP counts := by
  induction links generalizing replacements broken with
  | nil =>
      cases made
      rfl
  | cons link rest inductionHypothesis =>
      rcases result_ofLinks_cons_eq_ok made with
        ⟨treatment, more, reported, treated, later, rfl, rfl⟩
      have here := once link treatment treated
      have behind := inductionHypothesis later
      rw [List.length_append, List.length_append, List.countP_cons]
      omega

end Generation

namespace Check

section Missing

variable (present : Text → Except Failure Bool) (cwd : Text) (rules : Rules) (file : Text)

/-- The link may be touched, and its target is missing. -/
def isMissing (href : Text) : Bool :=
  !Href.isSkipped rules.exclusions href &&
    match present (Target.path cwd rules.folders rules.root file (Href.withoutAnchor href)) with
    | .ok there => !there
    | .error _ => false

def missingLinks (content : Text) : List Link :=
  (extractLinks content).filter fun link => isMissing present cwd rules file link.href

end Missing

variable {present : Text → Except Failure Bool} {cwd : Text} {rules : Rules} {file : Text}
variable {href candidate : Text} {lines : List Text} {link : Link} {treatment : Treatment}

theorem isMissing_eq {target : Text} {there : Bool}
    (unskipped : Href.isSkipped rules.exclusions href = false)
    (led : Target.path? cwd rules.folders rules.root file (Href.withoutAnchor href) = .ok target)
    (asked : present target = .ok there) : isMissing present cwd rules file href = !there := by
  unfold Target.path? at led
  split at led
  · cases led
  · cases led
    rw [isMissing, unskipped, asked]
    rfl

theorem Leads.isMissing_eq_false (leads : Leads present cwd rules file href) :
    isMissing present cwd rules file href = false := by
  cases skipped : Href.isSkipped rules.exclusions href with
  | true =>
      rw [isMissing, skipped]
      rfl
  | false =>
      rcases leads skipped with ⟨target, led, there⟩
      exact isMissing_eq skipped led there

theorem Repairable.isMissing (repairable : Repairable present cwd rules file href candidate) :
    isMissing present cwd rules file href = true := by
  rcases repairable.missing with ⟨target, led, missing⟩
  exact isMissing_eq repairable.unskipped led missing

/-- A link is replaced or reported exactly if its target is missing. -/
theorem length_of_treat (treated : treat present cwd rules file lines link = .ok treatment) :
    treatment.replacement?.toList.length + treatment.broken?.toList.length =
      if isMissing present cwd rules file link.href then 1 else 0 := by
  rcases classified_of_treat treated with ⟨cls, falls, emits⟩
  cases cls with
  | skipped =>
      have leads : Leads present cwd rules file link.href :=
        fun unskipped => nomatch falls.symm.trans unskipped
      rw [leads.isMissing_eq_false, emits.1, emits.2]
      rfl
  | sound =>
      have leads : Leads present cwd rules file link.href := fun _ => falls.2
      rw [leads.isMissing_eq_false, emits.1, emits.2]
      rfl
  | repairable =>
      rcases falls with ⟨_, repairable⟩
      rcases emits with ⟨unreported, _, _, written, _⟩
      rw [repairable.isMissing, written, unreported]
      rfl
  | lost =>
      rcases falls with ⟨unskipped, ⟨_, led, missing⟩, _⟩
      rcases emits with ⟨unwritten, _, reported, _⟩
      rw [isMissing_eq unskipped led missing, unwritten, reported]
      rfl

/-- A link that is repaired begins with a dot, and its target is missing. -/
theorem Repairs.missing {replacement : Replacement}
    (repairs : Repairs present cwd rules file replacement link) :
    Check.isMissing present cwd rules file link.href = true ∧ link.href.startsWith ['.'] = true := by
  rcases repairs.repairable with ⟨_, repairable, _⟩
  exact ⟨repairable.isMissing,
    (Variant.mem_candidates (Variant.of_findM?_eq_some repairable.found).1).1⟩

/-- What a check of a text has done with the links whose target is missing. -/
structure Accounted (present : Text → Except Failure Bool) (cwd : Text) (rules : Rules) (file : Text)
    (content : Text) (outcome : Edit.Outcome) (broken : List BrokenLink) : Prop where
  /-- Each of them was patched, or reported, or its edit was left out. -/
  settled : (missingLinks present cwd rules file content).length =
    outcome.applied + broken.length + outcome.missed.length
  /-- Nothing was done but patching. -/
  only : outcome.tally.Only Replacement.patched
  /-- The edits made are counted. -/
  balanced : outcome.Balanced
  /-- An edit that was left out is that of one of them, and where each of them stands on one line it
  is one that was found without a range. -/
  among : ∀ replacement ∈ outcome.missed,
    ∃ link ∈ missingLinks present cwd rules file content, replacement.Copies link ∧
      ((∀ other ∈ missingLinks present cwd rules file content, '\n' ∉ other.href) →
        link.start? = none)

/-- A check of a text accounts for the links whose target is missing. -/
theorem accounted_of_result {content : Text} {lines : List Text} {replacements : List Replacement}
    {broken : List BrokenLink}
    (made : (generate present cwd rules file lines (extractLinks content)).result =
      .ok (replacements, broken)) (window : Int) :
    Accounted present cwd rules file content (Edit.apply window content replacements) broken := by
  have counted := Generation.length_result (fun _ _ treated => length_of_treat treated) made
  rcases exists_origins present cwd rules file lines (extractLinks content) with
    ⟨origins, among, repairs⟩
  rw [(Generation.result_eq_ok made).1] at repairs
  have copied := repairs.imp fun _ _ repair => repair.copies
  have sameKind : ∀ replacement ∈ replacements, replacement.kind = Replacement.patched := by
    intro replacement member
    rcases Link.exists_origin repairs member with ⟨_, _, repair⟩
    exact repair.kind
  have missingOrigin : ∀ link ∈ origins, link ∈ missingLinks present cwd rules file content ∧
      link.href.startsWith ['.'] = true := by
    intro link member
    rcases Link.exists_origin repairs.flip member with ⟨_, _, repair⟩
    exact ⟨List.mem_filter.mpr ⟨among.subset member, repair.missing.1⟩, repair.missing.2⟩
  have accounts := Edit.accounts_apply window content replacements
  constructor
  case settled =>
    rw [missingLinks, ← List.countP_eq_length_filter, ← counted, ← accounts.settled]
    omega
  case only => exact accounts.only sameKind
  case balanced => exact Edit.balanced_apply window content replacements
  case among =>
    intro replacement missed
    rcases Link.exists_origin copied (accounts.among replacement missed) with ⟨link, member, copies⟩
    refine ⟨link, (missingOrigin link member).1, copies, fun oneLine => ?_⟩
    refine Link.start?_of_range?_eq_none copies (among.subset member) ?_
    refine Edit.range?_of_missed window content ?fits ?apart replacement missed
    case fits =>
      intro placed listed
      rcases List.mem_filterMap.mp listed with ⟨other, asked, found⟩
      rcases Link.exists_origin copied asked with ⟨origin, inOrigins, copiesOther⟩
      exact Link.fits_of_copies copiesOther (among.subset inOrigins) found
    case apart =>
      -- A repaired href begins with a dot, so it can be seen, and on one line it lies apart.
      refine Link.pairwise_placed_of_copies copied among fun origin inOrigins => ?_
      rcases missingOrigin origin inOrigins with ⟨missing, dotted⟩
      rcases Text.startsWith_iff.mp dotted with ⟨rest, begins⟩
      exact ⟨⟨'.', begins ▸ List.mem_cons_self, by decide⟩, oneLine origin missing⟩

end Check

namespace Batch

/-- The edits that a run has left out. -/
def lost (records : List FileRecord) : List Replacement :=
  (records.filterMap (·.outcome?)).flatMap (·.missed)

/-- Those of some links whose target is missing. -/
def missing {σ : Type} [Files σ] (files : σ) (cwd : Text) (rules : Rules) (links : List FileLink) :
    List FileLink :=
  links.filter fun found =>
    Check.isMissing (Files.present files) cwd rules found.file found.link.href

variable {store : Store} {cwd : Text} {rules : Rules} {write : Bool}

/-- A record accounts for the links of its file whose target is missing. -/
def Checked (store : Store) (cwd : Text) (rules : Rules) (record : FileRecord) : Prop :=
  ∃ content outcome, store.read record.file = .ok content ∧ record.result = .ok outcome ∧
    Check.Accounted (Files.present store) cwd rules record.file content outcome record.broken

/-- The work on a file that comes to its end is recorded with an account. -/
theorem checked_processFile {file : Text} {outcome : Edit.Outcome}
    (made : (processFile store (checking cwd rules) write file).1.result = .ok outcome) :
    Checked store cwd rules (processFile store (checking cwd rules) write file).1 := by
  have step := step_processFile (checking cwd rules) write store file
  rw [made] at step
  rcases step.revised_of_ok with ⟨content, source, revised⟩
  refine ⟨content, outcome, ?_, made, ?_⟩
  · rw [file_processFile]
    exact source
  · rw [file_processFile]
    rcases revise_eq_ok_iff.mp revised with ⟨replacements, result, rfl⟩
    exact Check.accounted_of_result result Edit.defaultWindow

/-- What the records of a check say of all links whose target is missing. -/
structure Reckoned (store : Store) (cwd : Text) (rules : Rules) (records : List FileRecord)
    (links : List FileLink) : Prop where
  /-- Each of them was patched, or reported, or its edit was left out. -/
  settled : (missing store cwd rules links).length =
    (summarize records).applied + (summarize records).broken.length + (lost records).length
  /-- An edit that was left out is that of one of them, and where each of those in its file stands on
  one line it is one that was found without a range. -/
  among : ∀ replacement ∈ lost records, ∃ found ∈ missing store cwd rules links,
    replacement.Copies found.link ∧
      ((∀ other ∈ missing store cwd rules links, other.file = found.file →
        '\n' ∉ other.link.href) → found.link.start? = none)

theorem lost_cons {record : FileRecord} {outcome : Edit.Outcome}
    (made : record.result = .ok outcome) (rest : List FileRecord) :
    lost (record :: rest) = outcome.missed ++ lost rest := by
  rw [lost, List.filterMap_cons_some (outcome?_eq_some_iff.mpr made), List.flatMap_cons]
  rfl

theorem applied_cons {record : FileRecord} {outcome : Edit.Outcome}
    (made : record.result = .ok outcome) (rest : List FileRecord) :
    (summarize (record :: rest)).applied = outcome.applied + (summarize rest).applied := by
  simp only [summarize, ← List.sum_eq_foldl_nat]
  rw [List.filterMap_cons_some (outcome?_eq_some_iff.mpr made), List.map_cons, List.sum_cons]

theorem broken_cons (record : FileRecord) (rest : List FileRecord) :
    (summarize (record :: rest)).broken = record.broken ++ (summarize rest).broken :=
  List.flatMap_cons

@[simp] theorem missing_append (first second : List FileLink) :
    missing store cwd rules (first ++ second) =
      missing store cwd rules first ++ missing store cwd rules second :=
  List.filter_append first second

theorem missing_ofFile (file content : Text) :
    missing store cwd rules ((extractLinks content).map fun link => { file, link }) =
      (Check.missingLinks (Files.present store) cwd rules file content).map
        fun link => { file, link } := by
  rw [missing, List.filter_map]
  rfl

theorem Reckoned.cons {record : FileRecord} {records : List FileRecord} {links : List FileLink}
    {content : Text} {outcome : Edit.Outcome} (made : record.result = .ok outcome)
    (accounted : Check.Accounted (Files.present store) cwd rules record.file content outcome
      record.broken) (reckoned : Reckoned store cwd rules records links) :
    Reckoned store cwd rules (record :: records)
      ((extractLinks content).map (fun link => { file := record.file, link }) ++ links) := by
  constructor
  case settled =>
    have applied := applied_cons made records
    have settled := accounted.settled
    have further := reckoned.settled
    rw [missing_append, missing_ofFile, lost_cons made, broken_cons]
    simp only [List.length_append, List.length_map]
    omega
  case among =>
    rw [lost_cons made, missing_append, missing_ofFile]
    intro replacement member
    rcases List.mem_append.mp member with here | later
    · rcases accounted.among replacement here with ⟨link, listed, copies, unplaced⟩
      refine ⟨⟨record.file, link⟩, List.mem_append_left _ (List.mem_map_of_mem listed), copies, ?_⟩
      intro oneLine
      exact unplaced fun other among =>
        oneLine ⟨record.file, other⟩ (List.mem_append_left _ (List.mem_map_of_mem among)) rfl
    · rcases reckoned.among replacement later with ⟨found, listed, copies, unplaced⟩
      refine ⟨found, List.mem_append_right _ listed, copies, fun oneLine => ?_⟩
      exact unplaced fun other among => oneLine other (List.mem_append_right _ among)

theorem exists_reckoned {records : List FileRecord}
    (each : ∀ record ∈ records, Checked store cwd rules record) :
    ∃ links, Survey.ofFiles store (records.map (·.file)) = .ok links ∧
      Reckoned store cwd rules records links := by
  induction records with
  | nil => exact ⟨[], rfl, rfl, fun _ member => absurd member List.not_mem_nil⟩
  | cons record rest inductionHypothesis =>
      rcases each record List.mem_cons_self with ⟨content, outcome, source, made, accounted⟩
      rcases inductionHypothesis fun other later => each other (List.mem_cons_of_mem record later)
        with ⟨links, surveyed, reckoned⟩
      refine ⟨_, ?_, reckoned.cons made accounted⟩
      have here : Survey.ofFile store record.file =
          .ok ((extractLinks content).map fun link => { file := record.file, link }) := by
        rw [Survey.ofFile, show Files.read store record.file = .ok content from source]
        rfl
      rw [List.map_cons, Survey.ofFiles, here, surveyed]
      rfl

theorem count_patched {records : List FileRecord}
    (each : ∀ record ∈ records, Checked store cwd rules record) :
    (summarize records).tally.count Replacement.patched = (summarize records).applied := by
  have accounts {record : FileRecord} {outcome : Edit.Outcome} (member : record ∈ records)
      (made : record.result = .ok outcome) :
      outcome.tally.Only Replacement.patched ∧ outcome.Balanced := by
    rcases each record member with ⟨_, other, _, same, accounted⟩
    rw [made] at same
    cases same
    exact ⟨accounted.only, accounted.balanced⟩
  have only : (summarize records).tally.Only Replacement.patched := by
    refine Tally.Only.foldl_merge (fun outcome member => ?_) (Tally.Only.nil _)
    rcases List.mem_filterMap.mp member with ⟨record, listed, found⟩
    exact (accounts listed (outcome?_eq_some_iff.mp found)).1
  rw [only.count_eq_total]
  exact (revised_eq_applied fun record member _ made => (accounts member made).2).2.symm

/-- A check of the files that a path names, none of which fails, whatever is stored and whether
repairs are wanted or not: the links whose target was missing are those counted as patched, those
reported, and those whose edits were left out.  An edit that was left out is that of a link that
was found without a range, if the links of its file whose target was missing stand on one line each;
so where all those links have ranges none is lost. -/
theorem checking_reckoned (home : Text) (entries : List (Text × Text)) (denied : List Text)
    (cwd : Text) (rules : Rules) (write : Bool) (path : Text) {records : List FileRecord}
    (ran : (processPath (Store.ofFiles home entries denied) (checking cwd rules) write path).1 =
      .ok records)
    (unfailed : (summarize records).failures = []) :
    let store := Store.ofFiles home entries denied
    let summary := summarize records
    ∃ found links, Files.collect store path = .ok found ∧
      Survey.ofFiles store found = .ok links ∧
      let gone := missing store cwd rules links
      gone.length = summary.tally.count Replacement.patched + summary.broken.length +
        (lost records).length ∧
      (∀ replacement ∈ lost records, ∃ found ∈ gone, replacement.Copies found.link ∧
        ((∀ other ∈ gone, other.file = found.file → '\n' ∉ other.link.href) →
          found.link.start? = none)) ∧
      ((∀ found ∈ gone, '\n' ∉ found.link.href ∧ found.link.start? ≠ none) →
        gone.length = summary.tally.count Replacement.patched + summary.broken.length) := by
  intro store summary
  unfold processPath at ran
  cases collected : Files.collect store path with
  | error failure =>
      rw [collected] at ran
      cases ran
  | ok found =>
      rw [collected] at ran
      have recorded : (processFiles (checking cwd rules) write store found).1 = records :=
        Except.ok.inj ran
      -- No two files stand for one key, so each is checked as it was stored at first.
      have distinct := Store.nodup_collect (Store.normal_ofFiles home entries denied) collected
      have steady : Steady (checking cwd rules : Rule Store) :=
        Task.steady_rule cwd (.checking rules)
      have files : records.map (·.file) = found :=
        recorded ▸ map_file_processFiles (checking cwd rules) write store found
      have each : ∀ record ∈ records, Checked store cwd rules record := by
        intro record member
        rcases result_of_unfailed unfailed member with ⟨outcome, made⟩
        rw [← recorded, steady.processFiles_fst distinct] at member
        rcases List.mem_map.mp member with ⟨file, _, rfl⟩
        exact checked_processFile made
      rcases exists_reckoned each with ⟨links, surveyed, reckoned⟩
      rw [files] at surveyed
      have settled := reckoned.settled
      rw [← count_patched each] at settled
      refine ⟨found, links, rfl, surveyed, settled, reckoned.among, fun placed => ?_⟩
      have none : lost records = [] := by
        refine List.eq_nil_iff_forall_not_mem.mpr fun replacement member => ?_
        rcases reckoned.among replacement member with ⟨origin, listed, _, unplaced⟩
        exact (placed origin listed).2 (unplaced fun other among _ => (placed other among).1)
      rw [none] at settled
      exact settled

/-- A link that climbs too far and is written with a backslash: its repair is left out. -/
theorem checking_reckoned_escaped :
    let store := Store.ofFiles "/w"
      [("/w/docs/a/b.md", "[g](../../gui\\_de.md)\n"), ("/w/docs/gui_de.md", "")] []
    let rules : Rules := { root := "/w", folders := ["docs"], exclusions := [] }
    let found : List Text := ["docs/a/b.md", "docs/gui_de.md"]
    let records := (processFiles (checking "/w" rules) false store found).1
    let summary := summarize records
    (processPath store (checking "/w" rules) false "docs").1 = .ok records ∧
      summary.failures = [] ∧
      (∃ links, Survey.ofFiles store found = .ok links ∧
        (missing store "/w" rules links).length =
          summary.tally.count Replacement.patched + summary.broken.length +
            (lost records).length) ∧
      summary.tally = [] ∧ summary.broken = [] ∧
      (lost records).map (·.oldHref) = ["../../gui_de.md"] := by
  intro store rules found records summary
  have collected : Files.collect store "docs" = .ok found := by decide +kernel
  have ran : (processPath store (checking "/w" rules) false "docs").1 = .ok records := by
    rw [processPath, collected]
  have unfailed : summary.failures = [] := by decide +kernel
  rcases checking_reckoned _ _ _ _ _ _ _ ran unfailed with
    ⟨again, links, same, surveyed, settled, _⟩
  rw [collected] at same
  cases same
  exact ⟨ran, unfailed, ⟨links, surveyed, settled⟩, by decide +kernel, by decide +kernel,
    by decide +kernel⟩

end Batch
end Crosslink

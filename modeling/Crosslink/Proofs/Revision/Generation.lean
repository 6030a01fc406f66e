import Mathlib.Data.List.Basic
import Crosslink.Revision.Generation

namespace Crosslink

/-- The replacement takes its link as the link stands: what is to be replaced, and where. -/
structure Replacement.Copies (replacement : Replacement) (link : Link) : Prop where
  oldHref : replacement.oldHref = link.href
  line : replacement.line = link.line
  start : replacement.start? = link.start?
  stop : replacement.stop? = link.stop?

namespace Generation

/-!
What a rule makes of a single link.  Replacements, reports and failures of a run over one
link are those of its treatment, so statements about a run come down to statements about
the treatment.
-/

variable {treat : Link → Except Failure Treatment} {link : Link} {treatment : Treatment}

theorem ofLinks_singleton (treated : treat link = .ok treatment) :
    ofLinks treat [link] = cons treatment empty := by
  rw [ofLinks, treated]
  rfl

theorem ofLinks_singleton_error {failure : Failure} (stopped : treat link = .error failure) :
    ofLinks treat [link] = { empty with failure? := some failure } := by
  rw [ofLinks, stopped]

theorem result_ofLinks_singleton (treated : treat link = .ok treatment) :
    (ofLinks treat [link]).result =
      .ok (treatment.replacement?.toList, treatment.broken?.toList) := by
  have made : (cons treatment empty).result =
      .ok (treatment.replacement?.toList ++ [], treatment.broken?.toList ++ []) := rfl
  rw [ofLinks_singleton treated, made, List.append_nil, List.append_nil]

theorem mem_replacements_singleton {replacement : Replacement} :
    replacement ∈ (ofLinks treat [link]).replacements ↔
      ∃ treatment, treat link = .ok treatment ∧ treatment.replacement? = some replacement := by
  cases treated : treat link with
  | error failure =>
      rw [ofLinks_singleton_error treated]
      constructor
      · intro member
        exact absurd member List.not_mem_nil
      · rintro ⟨_, impossible, _⟩
        cases impossible
  | ok treatment =>
      rw [ofLinks_singleton treated, cons, show (empty : Generation).replacements = [] from rfl,
        List.append_nil, Option.mem_toList]
      constructor
      · intro revised
        exact ⟨treatment, rfl, revised⟩
      · rintro ⟨_, same, revised⟩
        cases same
        exact revised

/-- A run over a single link comes to its end with nothing to say exactly if the link can be
treated and is neither revised nor reported. -/
theorem result_singleton_eq_nil_iff :
    (ofLinks treat [link]).result = .ok ([], []) ↔
      ∃ treatment, treat link = .ok treatment ∧ treatment.replacement? = none ∧
        treatment.broken? = none := by
  cases treated : treat link with
  | error failure =>
      rw [ofLinks_singleton_error treated]
      constructor
      · intro impossible
        cases impossible
      · rintro ⟨_, impossible, _⟩
        cases impossible
  | ok treatment =>
      rw [result_ofLinks_singleton treated]
      constructor
      · intro quiet
        have pair := Prod.mk.inj (Except.ok.inj quiet)
        exact ⟨treatment, rfl, Option.toList_eq_nil_iff.mp pair.1,
          Option.toList_eq_nil_iff.mp pair.2⟩
      · rintro ⟨_, same, unrevised, unreported⟩
        cases same
        rw [unrevised, unreported]
        rfl

theorem result_eq_ok {generation : Generation} {replacements : List Replacement}
    {broken : List BrokenLink} (made : generation.result = .ok (replacements, broken)) :
    generation.replacements = replacements ∧ generation.broken = broken := by
  unfold result at made
  split at made
  · cases made
  · cases made
    exact ⟨rfl, rfl⟩

/-! ## Several links -/

theorem result_cons (treatment : Treatment) (rest : Generation) :
    (cons treatment rest).result = rest.result.map fun made =>
      (treatment.replacement?.toList ++ made.1, treatment.broken?.toList ++ made.2) := by
  rw [result, result, cons]
  cases rest.failure? <;> rfl

/-- A rule that comes to its end has treated the first link and come to the end of the others. -/
theorem result_ofLinks_cons_eq_ok {links : List Link} {replacements : List Replacement}
    {broken : List BrokenLink}
    (made : (ofLinks treat (link :: links)).result = .ok (replacements, broken)) :
    ∃ treatment more reported, treat link = .ok treatment ∧
      (ofLinks treat links).result = .ok (more, reported) ∧
      replacements = treatment.replacement?.toList ++ more ∧
      broken = treatment.broken?.toList ++ reported := by
  rw [ofLinks] at made
  cases treated : treat link with
  | error failure =>
      rw [treated] at made
      cases made
  | ok treatment =>
      rw [treated] at made
      dsimp only at made
      rw [result_cons] at made
      cases later : (ofLinks treat links).result with
      | error failure =>
          rw [later] at made
          cases made
      | ok pair =>
          rw [later] at made
          cases made
          exact ⟨treatment, pair.1, pair.2, rfl, rfl, rfl, rfl⟩

/-- Where a rule comes to its end it has treated every link, and what it reports of each is among
its reports. -/
theorem treatment_of_mem {links : List Link} {replacements : List Replacement}
    {broken : List BrokenLink} (made : (ofLinks treat links).result = .ok (replacements, broken))
    (member : link ∈ links) :
    ∃ treatment, treat link = .ok treatment ∧
      ∀ reported, treatment.broken? = some reported → reported ∈ broken := by
  induction links generalizing replacements broken with
  | nil => exact absurd member List.not_mem_nil
  | cons first rest inductionHypothesis =>
      rcases result_ofLinks_cons_eq_ok made with ⟨treatment, _, more, treated, later, _, rfl⟩
      rcases List.mem_cons.mp member with here | behind
      · refine ⟨treatment, here ▸ treated, fun reported found => ?_⟩
        exact List.mem_append_left _ (Option.mem_toList.mpr found)
      · rcases inductionHypothesis later behind with ⟨other, also, listed⟩
        exact ⟨other, also, fun reported found =>
          List.mem_append_right _ (listed reported found)⟩

/-- A rule that stops has come to a link that it cannot treat. -/
theorem exists_of_result_eq_error {links : List Link} {failure : Failure}
    (stopped : (ofLinks treat links).result = .error failure) :
    ∃ link ∈ links, treat link = .error failure := by
  induction links with
  | nil => cases stopped
  | cons first rest inductionHypothesis =>
      rw [ofLinks] at stopped
      cases treated : treat first with
      | error other =>
          rw [treated] at stopped
          cases stopped
          exact ⟨first, List.mem_cons_self, treated⟩
      | ok treatment =>
          rw [treated] at stopped
          dsimp only at stopped
          rw [result_cons] at stopped
          cases later : (ofLinks treat rest).result with
          | ok pair =>
              rw [later] at stopped
              cases stopped
          | error other =>
              rw [later] at stopped
              cases stopped
              rcases inductionHypothesis later with ⟨link, among, untreated⟩
              exact ⟨link, .tail first among, untreated⟩

/-- A link that a rule cannot treat stops the rule, at this link or at one before it. -/
theorem exists_result_eq_error {links : List Link} {failure : Failure} (member : link ∈ links)
    (stopped : treat link = .error failure) :
    ∃ first, (ofLinks treat links).result = .error first := by
  cases made : (ofLinks treat links).result with
  | error first => exact ⟨first, rfl⟩
  | ok pair =>
      rcases treatment_of_mem made member with ⟨treatment, treated, _⟩
      cases stopped.symm.trans treated

/-- What a rule has made, whether it came to its end or not, stems from treatments of links. -/
theorem exists_treated (treat : Link → Except Failure Treatment) (links : List Link) :
    ∃ treatments : List Treatment,
      (∀ treatment ∈ treatments, ∃ link ∈ links, treat link = .ok treatment) ∧
        (ofLinks treat links).replacements = treatments.filterMap (·.replacement?) ∧
        (ofLinks treat links).broken = treatments.filterMap (·.broken?) := by
  induction links with
  | nil => exact ⟨[], nofun, rfl, rfl⟩
  | cons link rest inductionHypothesis =>
      rw [ofLinks]
      cases treated : treat link with
      | error failure => exact ⟨[], nofun, rfl, rfl⟩
      | ok treatment =>
          rcases inductionHypothesis with ⟨treatments, origins, replacements, broken⟩
          refine ⟨treatment :: treatments, ?_, ?_, ?_⟩
          · intro other member
            rcases List.mem_cons.mp member with here | later
            · exact ⟨link, List.mem_cons_self, here ▸ treated⟩
            · rcases origins other later with ⟨origin, among, made⟩
              exact ⟨origin, List.mem_cons_of_mem link among, made⟩
          · simp only [cons, replacements, List.filterMap_eq_flatMap_toList, List.flatMap_cons]
          · simp only [cons, broken, List.filterMap_eq_flatMap_toList, List.flatMap_cons]

theorem exists_of_mem_replacements {links : List Link} {replacement : Replacement}
    (member : replacement ∈ (ofLinks treat links).replacements) :
    ∃ link ∈ links, ∃ treatment, treat link = .ok treatment ∧
      treatment.replacement? = some replacement := by
  rcases exists_treated treat links with ⟨treatments, origins, made, _⟩
  rcases List.mem_filterMap.mp (made ▸ member) with ⟨treatment, listed, written⟩
  rcases origins treatment listed with ⟨link, among, treated⟩
  exact ⟨link, among, treatment, treated, written⟩

/-- What is reported stems from the treatment of a link. -/
theorem exists_of_mem_broken {links : List Link} {broken : BrokenLink}
    (member : broken ∈ (ofLinks treat links).broken) :
    ∃ link ∈ links, ∃ treatment, treat link = .ok treatment ∧ treatment.broken? = some broken := by
  rcases exists_treated treat links with ⟨treatments, origins, _, made⟩
  rcases List.mem_filterMap.mp (made ▸ member) with ⟨treatment, listed, reported⟩
  rcases origins treatment listed with ⟨link, among, treated⟩
  exact ⟨link, among, treatment, treated, reported⟩

end Generation
end Crosslink

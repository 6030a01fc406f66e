import Crosslink.Proofs.Revision.Generation
import Crosslink.Proofs.Revision.Steady

namespace Crosslink

/-!
Rules that treat each link on its own.  What a rule makes of several links is what it makes of
each of them, one after the other, and it stops where one of them stops it.  Which links it may
touch is a matter of the exclusions alone: one more exclusion does what leaving out its links
would do.
-/

namespace Generation

variable {treat other : Link → Except Failure Treatment}

/-- What came of some links and then of more; the first failure counts. -/
def joined (first second : Except Failure (List Replacement × List BrokenLink)) :
    Except Failure (List Replacement × List BrokenLink) :=
  match first, second with
  | .ok here, .ok more => .ok (here.1 ++ more.1, here.2 ++ more.2)
  | .ok _, .error failure => .error failure
  | .error failure, _ => .error failure

/-- Work on links that come one after the other stops where the work on either stops. -/
theorem joined_eq_error_iff {first second : Except Failure (List Replacement × List BrokenLink)} :
    (∃ failure, joined first second = .error failure) ↔
      (∃ failure, first = .error failure) ∨ ∃ failure, second = .error failure := by
  cases first with
  | error failure => exact ⟨fun _ => Or.inl ⟨failure, rfl⟩, fun _ => ⟨failure, rfl⟩⟩
  | ok here =>
      cases second with
      | error failure => exact ⟨fun _ => Or.inr ⟨failure, rfl⟩, fun _ => ⟨failure, rfl⟩⟩
      | ok more =>
          constructor
          · rintro ⟨_, impossible⟩
            cases impossible
          · rintro (⟨_, impossible⟩ | ⟨_, impossible⟩) <;> cases impossible

@[simp] theorem cons_none (rest : Generation) : cons Treatment.none rest = rest := rfl

/-- What a rule makes of links that come one after the other. -/
theorem result_ofLinks_append (first second : List Link) :
    (ofLinks treat (first ++ second)).result =
      joined (ofLinks treat first).result (ofLinks treat second).result := by
  induction first with
  | nil =>
      rw [List.nil_append]
      cases (ofLinks treat second).result <;> rfl
  | cons link rest inductionHypothesis =>
      rw [List.cons_append, ofLinks, ofLinks]
      cases treat link with
      | error failure => rfl
      | ok treatment =>
          simp only [result_cons, inductionHypothesis]
          cases (ofLinks treat rest).result with
          | error failure => rfl
          | ok made =>
              cases (ofLinks treat second).result with
              | error failure => rfl
              | ok more => simp only [joined, Except.map, List.append_assoc]

/-- Links that a rule leaves as they are might as well not be there. -/
theorem ofLinks_filter (keeps : Link → Bool)
    (passed : ∀ link, keeps link = false → treat link = .ok Treatment.none)
    (same : ∀ link, keeps link = true → treat link = other link) (links : List Link) :
    ofLinks treat links = ofLinks other (links.filter keeps) := by
  induction links with
  | nil => rfl
  | cons link rest inductionHypothesis =>
      cases kept : keeps link with
      | true =>
          rw [List.filter_cons_of_pos kept, ofLinks, ofLinks, same link kept, inductionHypothesis]
      | false =>
          rw [List.filter_cons_of_neg (Bool.eq_false_iff.mp kept), ofLinks, passed link kept]
          simp only [cons_none, inductionHypothesis]

theorem exists_origins (mayTouch : Link → Bool) (Stems : Replacement → Link → Prop)
    (stems : ∀ link treatment replacement, treat link = .ok treatment →
      treatment.replacement? = some replacement → mayTouch link = true ∧ Stems replacement link)
    (links : List Link) :
    ∃ origins : List Link, origins.Sublist (links.filter mayTouch) ∧
      List.Forall₂ Stems (ofLinks treat links).replacements origins := by
  induction links with
  | nil => exact ⟨[], List.Sublist.slnil, List.Forall₂.nil⟩
  | cons link rest inductionHypothesis =>
      rcases inductionHypothesis with ⟨origins, among, stemming⟩
      have later : (rest.filter mayTouch).Sublist ((link :: rest).filter mayTouch) :=
        (List.sublist_cons_self link rest).filter mayTouch
      rw [ofLinks]
      cases treated : treat link with
      | error failure => exact ⟨[], List.nil_sublist _, List.Forall₂.nil⟩
      | ok treatment =>
          cases written : treatment.replacement? with
          | none =>
              refine ⟨origins, among.trans later, ?_⟩
              simp only [cons, written, Option.toList_none, List.nil_append]
              exact stemming
          | some replacement =>
              rcases stems link treatment replacement treated written with ⟨touched, stemsHere⟩
              refine ⟨link :: origins, ?_, ?_⟩
              · rw [List.filter_cons_of_pos touched]
                exact among.cons_cons link
              · simp only [cons, written, Option.toList_some, List.singleton_append]
                exact List.Forall₂.cons stemsHere stemming

/-- A rule that can treat every link comes to its end with what it makes of each, in order. -/
theorem exists_treatments {Made : Link → Treatment → Prop} (links : List Link)
    (each : ∀ link ∈ links, ∃ treatment, treat link = .ok treatment ∧ Made link treatment) :
    ∃ treatments : List Treatment, List.Forall₂ Made links treatments ∧
      (ofLinks treat links).result =
        .ok (treatments.filterMap (·.replacement?), treatments.filterMap (·.broken?)) := by
  induction links with
  | nil => exact ⟨[], List.Forall₂.nil, rfl⟩
  | cons link rest inductionHypothesis =>
      rcases each link List.mem_cons_self with ⟨treatment, treated, made⟩
      rcases inductionHypothesis fun other later => each other (List.mem_cons_of_mem link later)
        with ⟨treatments, allMade, result⟩
      refine ⟨treatment :: treatments, List.Forall₂.cons made allMade, ?_⟩
      rw [ofLinks, treated]
      dsimp only
      rw [result_cons, result]
      simp only [Except.map, List.filterMap_eq_flatMap_toList, List.flatMap_cons]

end Generation

/-- A way of treating links that asks the exclusions only whether a link may be touched, leaves
alone those that may not, and copies the link into the replacement of any other. -/
structure Governed (treat : List Text → Link → Except Failure Treatment) : Prop where
  /-- A link that may not be touched is left as it is. -/
  skipped : ∀ exclusions link, Href.isSkipped exclusions link.href = true →
    treat exclusions link = .ok Treatment.none
  /-- Nothing else is asked of the exclusions. -/
  same : ∀ exclusions other link,
    Href.isSkipped exclusions link.href = Href.isSkipped other link.href →
    treat exclusions link = treat other link
  /-- A replacement is one of its link. -/
  copies : ∀ exclusions link treatment replacement, treat exclusions link = .ok treatment →
    treatment.replacement? = some replacement → replacement.Copies link

namespace Href

/-- One more exclusion covers the hrefs that begin with it. -/
theorem isSkipped_insert (before after : List Text) (start href : Text) :
    isSkipped (before ++ start :: after) href =
      (href.startsWith start || isSkipped (before ++ after) href) := by
  simp only [isSkipped, List.any_append, List.any_cons]
  cases Text.startsWith href start <;> simp

end Href

namespace Governed

variable {treat : List Text → Link → Except Failure Treatment}

theorem unskipped_of_replacement (governed : Governed treat) {exclusions : List Text} {link : Link}
    {treatment : Treatment} {replacement : Replacement}
    (treated : treat exclusions link = .ok treatment)
    (written : treatment.replacement? = some replacement) :
    (!Href.isSkipped exclusions link.href) = true := by
  cases covered : Href.isSkipped exclusions link.href with
  | false => rfl
  | true =>
      rw [governed.skipped exclusions link covered] at treated
      cases treated
      cases written

/-- One more exclusion does what leaving out its links does. -/
theorem ofLinks_insert (governed : Governed treat) (before after : List Text) (start : Text)
    (links : List Link) :
    Generation.ofLinks (treat (before ++ start :: after)) links =
      Generation.ofLinks (treat (before ++ after))
        (links.filter fun link => !link.href.startsWith start) := by
  refine Generation.ofLinks_filter _ ?passed ?same links
  case passed =>
    intro link excluded
    refine governed.skipped _ link ?_
    rw [Href.isSkipped_insert, Bool.not_eq_eq_eq_not.mp excluded]
    rfl
  case same =>
    intro link kept
    refine governed.same _ _ link ?_
    rw [Href.isSkipped_insert, Bool.not_eq_eq_eq_not.mp kept, Bool.not_true, Bool.false_or]

end Governed

/-! ## The three rules -/

theorem Normalize.copies_of_revise {file : Text} {link : Link} {parts : Href.Parts}
    {strategy : Normalize.Strategy} {path : Text} {replacement : Replacement}
    (written : (Normalize.revise file link parts strategy path).replacement? = some replacement) :
    replacement.Copies link := by
  unfold Normalize.revise at written
  dsimp only at written
  split at written
  · cases written
  · cases written
    exact ⟨rfl, rfl, rfl, rfl⟩

theorem Normalize.copies_of_treatAtRoot {present : Text → Except Failure Bool} {cwd : Text}
    {rules : Rules} {file : Text} {link : Link} {parts : Href.Parts} {target : Text}
    {treatment : Treatment} {replacement : Replacement}
    (treated : Normalize.treatAtRoot present cwd rules file link parts target = .ok treatment)
    (written : treatment.replacement? = some replacement) : replacement.Copies link := by
  delta Normalize.treatAtRoot at treated
  split at treated
  · cases treated
    cases written
  · split at treated
    · cases treated
      cases written
    · split at treated
      · cases treated
        exact copies_of_revise written
      · cases treated
        cases written
      · cases treated

/-- What becomes of a link with a target depends on the root alone. -/
theorem Normalize.treatTarget_congr (present : Text → Except Failure Bool) (cwd file : Text)
    {rules other : Rules} (same : rules.root = other.root) :
    Normalize.treatTarget present cwd rules file = Normalize.treatTarget present cwd other file := by
  -- The equations of these definitions are slow to derive, so they are opened by `delta`.
  delta Normalize.treatTarget Normalize.treatAtRoot
  rw [same]

theorem Normalize.governed_treat (present : Text → Except Failure Bool) (cwd : Text)
    (rules : Rules) (file : Text) :
    Governed fun exclusions => Normalize.treat present cwd { rules with exclusions } file where
  skipped exclusions link covered := by rw [Normalize.treat, if_pos covered]
  same exclusions other link agree := by
    have target : Normalize.treatTarget present cwd { rules with exclusions } file =
        Normalize.treatTarget present cwd { rules with exclusions := other } file :=
      Normalize.treatTarget_congr present cwd file rfl
    rw [Normalize.treat, Normalize.treat, agree, target]
  copies exclusions link treatment replacement treated written := by
    unfold Normalize.treat at treated
    split at treated
    · cases treated
      cases written
    · dsimp only at treated
      split at treated
      · cases treated
      · delta Normalize.treatTarget at treated
        split at treated
        · exact copies_of_treatAtRoot treated written
        · split at treated
          · cases treated
            exact copies_of_revise written
          · exact copies_of_treatAtRoot treated written
          · cases treated

theorem Substitute.governed_treat (oldBase newBase : Text) :
    Governed (Substitute.treat oldBase newBase) where
  skipped exclusions link covered := by
    rw [Substitute.treat]
    simp only [covered, Bool.true_or, if_true]
  same exclusions other link agree := by
    unfold Substitute.treat
    rw [agree]
  copies exclusions link treatment replacement treated written := by
    unfold Substitute.treat at treated
    dsimp only at treated
    split at treated
    · cases treated
      cases written
    · cases treated
      cases written
      exact ⟨rfl, rfl, rfl, rfl⟩

theorem Check.governed_treat (present : Text → Except Failure Bool) (cwd : Text) (rules : Rules)
    (file : Text) (lines : List Text) :
    Governed fun exclusions => Check.treat present cwd { rules with exclusions } file lines where
  skipped exclusions link covered := by rw [Check.treat, if_pos covered]
  same exclusions other link agree := by
    rw [Check.treat, Check.treat, agree]
    rfl
  copies exclusions link treatment replacement treated written := by
    unfold Check.treat at treated
    split at treated
    · cases treated
      cases written
    · split at treated
      · cases treated
      · split at treated
        · cases treated
          cases written
        · unfold Check.treatMissing at treated
          split at treated
          · cases treated
          · next candidate _ =>
              unfold Check.patch at treated
              dsimp only at treated
              split at treated
              · cases treated
              · cases treated
                cases written
                exact ⟨rfl, rfl, rfl, rfl⟩
          · cases treated
            cases written
        · cases treated

namespace Batch

/-- Beginnings of hrefs that the task leaves alone. -/
def Task.exclusions : Task → List Text
  | normalizing rules => rules.exclusions
  | substituting _ _ exclusions => exclusions
  | checking rules => rules.exclusions

def Task.withExclusions (exclusions : List Text) : Task → Task
  | normalizing rules => normalizing { rules with exclusions }
  | substituting oldBase newBase _ => substituting oldBase newBase exclusions
  | checking rules => checking { rules with exclusions }

variable {σ : Type} [Files σ]

def Task.treat (cwd : Text) (files : σ) (file : Text) (lines : List Text) :
    Task → List Text → Link → Except Failure Treatment
  | normalizing rules => fun exclusions =>
      Normalize.treat (Files.present files) cwd { rules with exclusions } file
  | substituting oldBase newBase _ => Substitute.treat oldBase newBase
  | checking rules => fun exclusions =>
      Check.treat (Files.present files) cwd { rules with exclusions } file lines

theorem Task.governed_treat (task : Task) (cwd : Text) (files : σ) (file : Text)
    (lines : List Text) : Governed (task.treat cwd files file lines) := by
  cases task with
  | normalizing rules => exact Normalize.governed_treat _ cwd rules file
  | substituting oldBase newBase exclusions => exact Substitute.governed_treat oldBase newBase
  | checking rules => exact Check.governed_treat _ cwd rules file lines

theorem Task.rule_eq_ofLinks (task : Task) (cwd : Text) (files : σ) (file : Text)
    (links : List Link) (lines : List Text) :
    task.rule cwd files file links lines =
      Generation.ofLinks (task.treat cwd files file lines task.exclusions) links := by
  cases task <;> rfl

theorem Task.rule_withExclusions (task : Task) (exclusions : List Text) (cwd : Text) (files : σ)
    (file : Text) (links : List Link) (lines : List Text) :
    (task.withExclusions exclusions).rule cwd files file links lines =
      Generation.ofLinks (task.treat cwd files file lines exclusions) links := by
  cases task <;> rfl

/-- Each of the rules treats link by link.  What it makes of links that come one after the other
is what it makes of the first ones and then of the others, and it stops exactly where it stops
at either; every replacement copies a link of its own that may be touched, in order; and one
more exclusion does what leaving out the links that begin with it does. -/
theorem Task.rule_linkwise (task : Task) (cwd : Text) (files : σ) (file : Text)
    (lines : List Text) :
    let generate (task : Task) (links : List Link) := task.rule cwd files file links lines
    (∀ first second : List Link,
      (generate task (first ++ second)).result =
          Generation.joined (generate task first).result (generate task second).result ∧
        ((∃ failure, (generate task (first ++ second)).result = .error failure) ↔
          (∃ failure, (generate task first).result = .error failure) ∨
            ∃ failure, (generate task second).result = .error failure)) ∧
      (∀ links : List Link, ∃ origins : List Link,
        origins.Sublist (links.filter fun link => !Href.isSkipped task.exclusions link.href) ∧
          List.Forall₂ Replacement.Copies (generate task links).replacements origins) ∧
      ∀ (before after : List Text) (start : Text) (links : List Link),
        generate (task.withExclusions (before ++ start :: after)) links =
          generate (task.withExclusions (before ++ after))
            (links.filter fun link => !link.href.startsWith start) := by
  have governed := task.governed_treat cwd files file lines
  dsimp only
  refine ⟨fun first second => ?_, fun links => ?_, fun before after start links => ?_⟩
  · simp only [Task.rule_eq_ofLinks, Generation.result_ofLinks_append,
      Generation.joined_eq_error_iff, and_self]
  · rw [Task.rule_eq_ofLinks]
    refine Generation.exists_origins _ _ ?_ links
    intro link treatment replacement treated written
    exact ⟨governed.unskipped_of_replacement treated written,
      governed.copies _ link treatment replacement treated written⟩
  · rw [Task.rule_withExclusions, Task.rule_withExclusions]
    exact governed.ofLinks_insert before after start links

end Batch
end Crosslink

import Crosslink.Proofs.Href.Kind
import Crosslink.Proofs.Link.Variant
import Crosslink.Proofs.Revision.Linkwise

namespace Crosslink
namespace Check

/-!
The four classes of links that a check tells apart.  Each class is stated with what is asked of a
link: whether it may be touched, whether its target is there, and whether a variant leads to
something.  What is emitted is stated for each class apart, and a check comes to its end because
links of all classes can be treated.  Two kinds of path would make it fail, that of a link with
nothing in front of its anchor and that of a variant whose path is empty.  But a link of the first
kind is never touched, and a variant begins with a dot.
-/

/-- What a link can be to a check. -/
inductive Class where
  /-- No revision may touch the link. -/
  | skipped
  /-- The target of the link is there. -/
  | sound
  /-- The target is missing, and a variant of the link leads to something. -/
  | repairable
  /-- The target is missing, and so is that of every variant. -/
  | lost
  deriving Repr, DecidableEq

section

variable (present : Text → Except Failure Bool) (cwd : Text) (rules : Rules) (file : Text)

/-- The link has a target, and it is there or missing as is said. -/
def TargetIs (there : Bool) (href : Text) : Prop :=
  ∃ target, Target.path? cwd rules.folders rules.root file (Href.withoutAnchor href) =
    .ok target ∧ present target = .ok there

/-- The target of the link is missing, and a variant of the link is the one that repairs it. -/
structure Repairable (href candidate : Text) : Prop where
  /-- The link may be touched. -/
  unskipped : Href.isSkipped rules.exclusions href = false
  /-- Its target is missing. -/
  missing : TargetIs present cwd rules file false href
  /-- The first variant whose target is there. -/
  found : Variant.find? present cwd rules file href = .ok (some candidate)

/-- What is written for a link that is repaired with a variant. -/
def mended (href candidate : Text) : Text :=
  keepDot href (Path.relativeHref cwd (Path.hostDir file)
      (Target.path cwd rules.folders rules.root file (Href.split candidate).path)) ++
    (Href.split candidate).query ++ (Href.split candidate).anchor

def Falls (href : Text) : Class → Prop
  | .skipped => Href.isSkipped rules.exclusions href = true
  | .sound => Href.isSkipped rules.exclusions href = false ∧
      TargetIs present cwd rules file true href
  | .repairable => ∃ candidate, Repairable present cwd rules file href candidate
  | .lost => Href.isSkipped rules.exclusions href = false ∧
      TargetIs present cwd rules file false href ∧
      Variant.find? present cwd rules file href = .ok none

/-- A text is that of the line with a number, counted from one, or empty if there is no such
line. -/
def IsLine (lines : List Text) (number : Int) (text : Text) : Prop :=
  (∃ index : Nat, number = index + 1 ∧ lines[index]? = some text) ∨
    (text = [] ∧ ∀ index : Nat, number = index + 1 → lines[index]? = none)

def Emits (lines : List Text) (link : Link) (treatment : Treatment) : Class → Prop
  | .skipped | .sound => treatment.replacement? = none ∧ treatment.broken? = none
  | .repairable => treatment.broken? = none ∧ ∃ replacement candidate,
      treatment.replacement? = some replacement ∧ replacement.Copies link ∧
      replacement.kind? = some "patched" ∧
      Repairable present cwd rules file link.href candidate ∧
      replacement.newHref = mended cwd rules file link.href candidate
  | .lost => treatment.replacement? = none ∧ ∃ broken,
      treatment.broken? = some broken ∧ broken.file = file ∧ broken.lineNumber = link.line ∧
      IsLine lines link.line broken.line

end

variable {present : Text → Except Failure Bool} {cwd file href : Text} {rules : Rules}
variable {link : Link}

/-! ## One class at most -/

theorem TargetIs.unique {one other : Bool} (first : TargetIs present cwd rules file one href)
    (second : TargetIs present cwd rules file other href) : one = other := by
  rcases first with ⟨target, led, asked⟩
  rcases second with ⟨again, alsoLed, alsoAsked⟩
  cases led.symm.trans alsoLed
  exact Except.ok.inj (asked.symm.trans alsoAsked)

theorem Falls.unique {one other : Class} (first : Falls present cwd rules file href one)
    (second : Falls present cwd rules file href other) : one = other := by
  cases one with
  | skipped =>
      cases other with
      | skipped => rfl
      | sound | lost => cases first.symm.trans second.1
      | repairable =>
          rcases second with ⟨_, repairable⟩
          cases first.symm.trans repairable.unskipped
  | sound =>
      cases other with
      | skipped => cases second.symm.trans first.1
      | sound => rfl
      | repairable =>
          rcases second with ⟨_, repairable⟩
          cases first.2.unique repairable.missing
      | lost => cases first.2.unique second.2.1
  | repairable =>
      rcases first with ⟨candidate, repairable⟩
      cases other with
      | skipped => cases second.symm.trans repairable.unskipped
      | sound => cases second.2.unique repairable.missing
      | repairable => rfl
      | lost => cases repairable.found.symm.trans second.2.2
  | lost =>
      cases other with
      | skipped => cases second.symm.trans first.1
      | sound => cases second.2.unique first.2.1
      | repairable =>
          rcases second with ⟨candidate, repairable⟩
          cases repairable.found.symm.trans first.2.2
      | lost => rfl

/-! ## One class at least -/

/-- A link that may be touched has a target. -/
theorem path?_withoutAnchor (cwd : Text) (file : Text)
    (unskipped : Href.isSkipped rules.exclusions href = false) :
    Target.path? cwd rules.folders rules.root file (Href.withoutAnchor href) =
      .ok (Target.path cwd rules.folders rules.root file (Href.withoutAnchor href)) :=
  if_neg fun empty => Href.withoutAnchor_ne_nil unskipped (List.isEmpty_iff.mp empty)

/-- The paths that a check of a link may ask for: its target, and where its variants lead. -/
def questions (cwd : Text) (rules : Rules) (file href : Text) : List Text :=
  (Href.withoutAnchor href :: Variant.candidates href).map
    (Target.path cwd rules.folders rules.root file)

/-- A link falls in a class if it can be told of each path that is asked for whether it is there. -/
theorem exists_falls_of_told
    (told : ∀ place ∈ questions cwd rules file href, ∃ there, present place = .ok there) :
    ∃ cls, Falls present cwd rules file href cls := by
  cases unskipped : Href.isSkipped rules.exclusions href with
  | true => exact ⟨.skipped, unskipped⟩
  | false =>
      have led := path?_withoutAnchor cwd file unskipped
      rcases told _ (List.mem_map_of_mem List.mem_cons_self) with ⟨there, asked⟩
      cases there with
      | true => exact ⟨.sound, unskipped, _, led, asked⟩
      | false =>
          have searched : ∃ found?, Variant.find? present cwd rules file href = .ok found? :=
            Variant.exists_findM?_eq_ok fun candidate member =>
              told _ (List.mem_map_of_mem (.tail _ member))
          rcases searched with ⟨found?, searched⟩
          cases found? with
          | some candidate => exact ⟨.repairable, candidate, unskipped, ⟨_, led, asked⟩, searched⟩
          | none => exact ⟨.lost, unskipped, ⟨_, led, asked⟩, searched⟩

/-- Where presence can be asked for without failing, every link falls in a class. -/
theorem exists_falls (present : Text → Bool) (cwd : Text) (rules : Rules) (file href : Text) :
    ∃ cls, Falls (fun place => .ok (present place)) cwd rules file href cls :=
  exists_falls_of_told fun place _ => ⟨present place, rfl⟩

theorem exists_falls_of_treat {lines : List Text} {treatment : Treatment}
    (treated : treat present cwd rules file lines link = .ok treatment) :
    ∃ cls, Falls present cwd rules file link.href cls := by
  unfold treat at treated
  split at treated
  · next skipped => exact ⟨.skipped, skipped⟩
  · next touched =>
      have unskipped := Bool.eq_false_iff.mpr touched
      split at treated
      · cases treated
      · next target led =>
          split at treated
          · next there => exact ⟨.sound, unskipped, target, led, there⟩
          · next missing =>
              unfold treatMissing at treated
              split at treated
              · cases treated
              · next candidate found =>
                  exact ⟨.repairable, candidate, unskipped, ⟨target, led, missing⟩, found⟩
              · next none => exact ⟨.lost, unskipped, ⟨target, led, missing⟩, none⟩
          · cases treated

/-- A link that cannot be treated is one with a path of which it cannot be told whether it is
there. -/
theorem exists_question_of_treat {lines : List Text} {failure : Failure}
    (stopped : treat present cwd rules file lines link = .error failure) :
    ∃ place ∈ questions cwd rules file link.href, present place = .error failure := by
  unfold treat at stopped
  split at stopped
  · cases stopped
  · next unskipped =>
      rw [path?_withoutAnchor cwd file (Bool.eq_false_iff.mpr unskipped)] at stopped
      dsimp only at stopped
      split at stopped
      · cases stopped
      · unfold treatMissing at stopped
        split at stopped
        · next untold =>
            cases stopped
            rcases Variant.of_findM?_eq_error untold with ⟨candidate, member, untold⟩
            exact ⟨_, List.mem_map_of_mem (.tail _ member), untold⟩
        · next candidate found =>
            have nonempty : ¬ (Href.split candidate).path.isEmpty = true := fun empty =>
              Variant.path_ne_nil_of_find? found (List.isEmpty_iff.mp empty)
            simp only [patch, Target.path?, if_neg nonempty] at stopped
            cases stopped
        · cases stopped
      · next untold =>
          cases stopped
          exact ⟨_, List.mem_map_of_mem List.mem_cons_self, untold⟩

/-! ## What is emitted -/

theorem isLine_lineOf (lines : List Text) (number : Int) :
    IsLine lines number (lineOf lines number) := by
  by_cases listed : ∃ (index : Nat) (text : Text), number = index + 1 ∧ lines[index]? = some text
  · rcases listed with ⟨index, text, rfl, held⟩
    have numbered : ¬ (index : Int) + 1 < 1 := by omega
    refine Or.inl ⟨index, rfl, ?_⟩
    rw [lineOf, if_neg numbered, Int.add_sub_cancel, Int.toNat_natCast, held, Option.getD_some]
  · have missing : ∀ index : Nat, number = index + 1 → lines[index]? = none := fun index numbered =>
      Option.eq_none_iff_forall_ne_some.mpr fun text held => listed ⟨index, text, numbered, held⟩
    refine Or.inr ⟨?_, missing⟩
    rw [lineOf]
    split
    · rfl
    · rw [missing (number - 1).toNat (by omega)]
      rfl

theorem treat_of_lost (lines : List Text) (falls : Falls present cwd rules file link.href .lost) :
    treat present cwd rules file lines link = .ok (report file lines link) := by
  rcases falls with ⟨unskipped, ⟨target, led, missing⟩, none⟩
  simp only [treat, treatMissing, unskipped, led, missing, none, Bool.false_eq_true, if_false]

theorem exists_treat (lines : List Text) {cls : Class}
    (falls : Falls present cwd rules file link.href cls) :
    ∃ treatment, treat present cwd rules file lines link = .ok treatment ∧
      Emits present cwd rules file lines link treatment cls := by
  cases cls with
  | skipped => exact ⟨Treatment.none, if_pos falls, rfl, rfl⟩
  | sound =>
      rcases falls with ⟨unskipped, target, led, there⟩
      refine ⟨Treatment.none, ?_, rfl, rfl⟩
      simp only [treat, unskipped, led, there, Bool.false_eq_true, if_false]
  | repairable =>
      rcases falls with ⟨candidate, repairable⟩
      rcases repairable.missing with ⟨target, led, missing⟩
      have nonempty : ¬ (Href.split candidate).path.isEmpty = true := fun empty =>
        Variant.path_ne_nil_of_find? repairable.found (List.isEmpty_iff.mp empty)
      have reached : treat present cwd rules file lines link =
          patch cwd rules file link candidate := by
        simp only [treat, treatMissing, repairable.unskipped, led, missing, repairable.found,
          Bool.false_eq_true, if_false]
      simp only [reached, patch, Target.path?, if_neg nonempty]
      exact ⟨_, rfl, rfl, _, candidate, rfl, ⟨rfl, rfl, rfl, rfl⟩, rfl, repairable, rfl⟩
  | lost =>
      exact ⟨report file lines link, treat_of_lost lines falls, rfl, _, rfl, rfl, rfl,
        isLine_lineOf lines link.line⟩

/-- What a check has made of a link is what the class of the link says. -/
theorem classified_of_treat {lines : List Text} {treatment : Treatment}
    (treated : treat present cwd rules file lines link = .ok treatment) :
    ∃ cls, Falls present cwd rules file link.href cls ∧
      Emits present cwd rules file lines link treatment cls := by
  rcases exists_falls_of_treat treated with ⟨cls, falls⟩
  rcases exists_treat lines falls with ⟨other, again, emits⟩
  cases treated.symm.trans again
  exact ⟨cls, falls, emits⟩

/-- A check in memory comes to its end.  Each link falls in one of the four classes, and what is
emitted, in the order of the links, is what their classes say. -/
theorem generate_classified (store : Store) (cwd : Text) (rules : Rules) (file : Text)
    (lines : List Text) (links : List Link) :
    (∀ link ∈ links, ∃! cls, Falls (Files.present store) cwd rules file link.href cls) ∧
      ∃ treatments : List Treatment,
        List.Forall₂ (fun link treatment =>
          ∀ cls, Falls (Files.present store) cwd rules file link.href cls →
            Emits (Files.present store) cwd rules file lines link treatment cls)
          links treatments ∧
        (generate (Files.present store) cwd rules file lines links).result =
          .ok (treatments.filterMap (·.replacement?), treatments.filterMap (·.broken?)) := by
  refine ⟨fun link _ => ?_, Generation.exists_treatments links fun link _ => ?_⟩
  · rcases exists_falls store.present cwd rules file link.href with ⟨cls, falls⟩
    exact ⟨cls, falls, fun other alsoFalls => alsoFalls.unique falls⟩
  · rcases exists_falls store.present cwd rules file link.href with ⟨cls, falls⟩
    rcases exists_treat lines falls with ⟨treatment, treated, emits⟩
    exact ⟨treatment, treated, fun other alsoFalls => alsoFalls.unique falls ▸ emits⟩

end Check
end Crosslink

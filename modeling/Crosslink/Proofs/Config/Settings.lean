import Crosslink.Config.Settings
import Crosslink.Proofs.Path.Located
import Crosslink.Proofs.Schema.Shape

namespace Crosslink

/-!
What an accepted configuration is made of, and what ends the reading of one.  Each of the readers
of a configuration is told here by what it takes for granted when it succeeds; what is proved of
configurations later is proved from that.  A root is written as an absolute path before it is
stored, so that all that is proved of links under an absolute root holds of every configuration.
-/

open Schema

variable {surroundings : Surroundings} {fields : List (Text × Value)}

namespace Rules

variable {rules : Rules} {name text written : Text} {texts : List Text} {value : Value}

/-! ## Texts -/

theorem textOf_eq_ok_iff : textOf value = .ok text ↔ value = .text text := by
  cases value with
  | text found => rw [textOf, Except.ok.injEq, Value.text.injEq]
  | _ => exact iff_of_false nofun nofun

theorem textsOf_eq_ok_iff : textsOf value = .ok texts ↔ value = Value.texts texts := by
  cases value with
  | list items =>
      rw [textsOf, Checked.all_eq_ok_iff, Value.texts, Value.list.injEq]
      constructor
      · intro passed
        have length : items.length = texts.length := by
          rw [← List.length_mapIdx, passed, List.length_map]
        refine List.ext_getElem (by rw [length, List.length_map]) fun index inside also => ?_
        have here := List.getElem_of_eq passed (by rw [List.length_mapIdx]; exact inside)
        rw [List.getElem_mapIdx, List.getElem_map, Checked.below_eq_ok_iff,
          textOf_eq_ok_iff] at here
        rw [here, List.getElem_map]
      · rintro rfl
        refine List.ext_getElem (by rw [List.length_mapIdx, List.length_map, List.length_map]) ?_
        intro index inside also
        rw [List.getElem_mapIdx, List.getElem_map, List.getElem_map]
        rfl
  | _ => exact iff_of_false nofun nofun

/-- The texts that a record gives for a field that may be missing. -/
def Gives (fields : List (Text × Value)) (name : Text) (texts : List Text) : Prop :=
  match Value.lookup? name fields with
  | some value => value = Value.texts texts
  | none => texts = []

theorem textsField_eq_ok_iff : textsField name fields = .ok texts ↔ Gives fields name texts := by
  rw [textsField, Gives]
  cases Value.lookup? name fields with
  | some value => exact Checked.below_eq_ok_iff.trans textsOf_eq_ok_iff
  | none =>
      dsimp only
      rw [Except.ok.injEq, eq_comm]

/-! ## The root -/

/-- The root can be looked for: it is not empty, and begins in the home directory of no user whose
name holds a null character. -/
structure IsRoot (root : Text) : Prop where
  nonempty : root ≠ []
  possible : ∀ user, Path.user? (Path.tidy root) = some user → '\x00' ∉ user

theorem isRoot_of_isAbsolute {root : Text} (absolute : Path.isAbsolute root = true) :
    IsRoot root := by
  constructor
  · rintro rfl
    cases absolute
  · intro user named
    rw [Path.user?_of_isAbsolute (Path.isAbsolute_tidy absolute)] at named
    cases named

theorem checkedRoot_eq_ok_iff {root : Text} :
    checkedRoot root = .ok written ↔ root = written ∧ IsRoot root := by
  unfold checkedRoot
  split
  · next empty =>
      refine iff_of_false nofun fun ⟨_, isRoot⟩ => ?_
      exact isRoot.nonempty (List.isEmpty_iff.mp empty)
  · next given =>
      split
      · next null =>
          refine iff_of_false nofun fun ⟨_, isRoot⟩ => ?_
          cases named : Path.user? (Path.tidy root) with
          | none =>
              rw [named] at null
              cases null
          | some user =>
              rw [named] at null
              exact isRoot.possible user named (List.contains_iff_mem.mp null)
      · next clean =>
          have isRoot : IsRoot root := by
            refine ⟨fun empty => given (List.isEmpty_iff.mpr empty), fun user named null => ?_⟩
            rw [named] at clean
            exact clean (List.contains_iff_mem.mpr null)
          rw [Except.ok.injEq]
          exact (and_iff_left isRoot).symm

theorem writtenRoot_eq_ok_iff :
    writtenRoot fields = .ok written ↔
      Value.lookup? rootName fields = some (.text written) ∧ IsRoot written := by
  rw [writtenRoot, Checked.below_eq_ok_iff]
  cases Value.lookup? rootName fields with
  | none => exact iff_of_false nofun fun ⟨impossible, _⟩ => nomatch impossible
  | some value =>
      rw [Option.some.injEq]
      dsimp only
      cases read : textOf value with
      | error mismatches =>
          refine iff_of_false nofun fun ⟨same, _⟩ => ?_
          rw [textOf_eq_ok_iff.mpr same] at read
          cases read
      | ok root =>
          dsimp only
          rw [checkedRoot_eq_ok_iff, textOf_eq_ok_iff.mp read, Value.text.injEq]
          constructor
          · rintro ⟨rfl, isRoot⟩
            exact ⟨rfl, isRoot⟩
          · rintro ⟨rfl, isRoot⟩
            exact ⟨rfl, isRoot⟩

/-! ## Rules -/

/-- Rules are accepted if each of the fields is, and there is no other. -/
theorem ofFields_eq_ok_iff :
    ofFields surroundings fields = .ok rules ↔
      ∃ folders root, Gives fields foldersName folders ∧
        (Value.lookup? rootName fields = some (.text root) ∧ IsRoot root) ∧
        Gives fields exclusionsName rules.exclusions ∧ unexpectedFields fieldNames fields = [] ∧
        Path.located surroundings root = .ok rules.root ∧
        rules.folders = distinctFolders folders := by
  simp only [← textsField_eq_ok_iff, ← writtenRoot_eq_ok_iff]
  constructor
  · intro accepted
    simp only [ofFields] at accepted
    cases given : writtenRoot fields with
    | error mismatches =>
        rw [given] at accepted
        cases accepted
    | ok root =>
        rw [given] at accepted
        cases located : Path.located surroundings root with
        | error fault =>
            simp only [located] at accepted
            cases accepted
        | ok found =>
            simp only [located] at accepted
            split at accepted
            · next folders exclusions named excluded none =>
                cases accepted
                exact ⟨folders, root, named, rfl, excluded, none, located, rfl⟩
            · cases accepted
  · rintro ⟨folders, root, named, given, excluded, none, located, distinct⟩
    simp only [ofFields, named, given, excluded, none, located, ← distinct]

theorem isAbsolute_root (absolute : Path.isAbsolute surroundings.cwd = true)
    (accepted : ofFields surroundings fields = .ok rules) :
    Path.isAbsolute rules.root = true := by
  rcases ofFields_eq_ok_iff.mp accepted with ⟨_, _, _, _, _, _, located, _⟩
  exact Path.isAbsolute_located absolute located

end Rules

namespace Settings

variable {settings : Settings}

/-- Settings are accepted if each of the sections is, and there is no other. -/
theorem ofFields_eq_ok_iff :
    ofFields surroundings fields = .ok settings ↔
      ∃ links, Value.lookup? linksName fields = some (.record links) ∧
        Rules.ofFields surroundings links = .ok settings.rules ∧
        logSection fields = .ok settings.level ∧ unexpectedFields sectionNames fields = [] := by
  constructor
  · intro accepted
    unfold ofFields at accepted
    split at accepted
    · cases accepted
    · next checked found =>
        split at accepted
        · next rules level read none =>
            cases accepted
            unfold rulesSection at found
            split at found
            · cases found
            · next links held =>
                split at found
                · next made =>
                    cases found
                    exact ⟨links, held, made, read, none⟩
                · cases found
                · cases found
            · cases found
        · cases accepted
  · rintro ⟨links, held, made, read, none⟩
    simp only [ofFields, rulesSection, held, made, read, none]

end Settings
end Crosslink

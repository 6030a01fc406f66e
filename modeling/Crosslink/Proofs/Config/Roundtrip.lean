import Crosslink.Proofs.Config.Settings
import Crosslink.Proofs.Data.Entries

namespace Crosslink

/-!
Configurations as fixed points.  Reading takes repeated names out of the docs folders and writes the
root as an absolute path, and neither does anything more to what it has made itself.  So an accepted
configuration is read back from its own record as it is, and a root that has been put in the place
of another may be put there again.
-/

variable {surroundings : Surroundings} {fields : List (Text × Value)}

namespace Rules

variable {rules : Rules} {root : Text}

/-! ## Docs folders -/

/-- The names of a list that are not empty, each where it first stands. -/
structure FirstNames (written kept : List Text) : Prop where
  /-- The names are left over when others are taken out of the list. -/
  sublist : kept.Sublist written
  /-- No name is left over twice. -/
  distinct : kept.Nodup
  /-- Every name is left over but the empty one. -/
  mem_iff : ∀ name, name ∈ kept ↔ name ∈ written ∧ name ≠ []
  /-- Names are left over in the order in which they first stand in the list. -/
  ordered : kept.Pairwise fun first second => written.idxOf first < written.idxOf second

theorem mem_distinctFolders {written : List Text} {name : Text} :
    name ∈ distinctFolders written ↔ name ∈ written ∧ name ≠ [] := by
  rw [distinctFolders, List.mem_eraseDups, List.mem_filter, Bool.not_eq_true',
    List.isEmpty_eq_false_iff]

theorem firstNames_distinctFolders (written : List Text) :
    FirstNames written (distinctFolders written) where
  sublist := (Firsts.eraseDups_sublist _).trans List.filter_sublist
  distinct := Firsts.nodup_eraseDups _
  mem_iff _ := mem_distinctFolders
  ordered := by
    refine (Firsts.pairwise_idxOf_eraseDups _).imp_of_mem fun {_ second} _ member before => ?_
    have passes := (List.mem_filter.mp (List.mem_eraseDups.mp member)).2
    exact Firsts.idxOf_lt_of_filter passes before

/-- Names from which repeats were taken out stay as they are. -/
theorem distinctFolders_distinctFolders (written : List Text) :
    distinctFolders (distinctFolders written) = distinctFolders written := by
  have named : ((distinctFolders written).filter fun folder => !folder.isEmpty) =
      distinctFolders written := by
    refine List.filter_eq_self.mpr fun folder member => ?_
    rw [Bool.not_eq_true', List.isEmpty_eq_false_iff]
    exact (mem_distinctFolders.mp member).2
  rw [distinctFolders, named]
  exact Firsts.eraseDups_of_nodup (firstNames_distinctFolders written).distinct

/-! ## Rules and their records -/

/-- Rules without repeated docs folders are read back from their record, but for the root, which is
located. -/
theorem ofFields_fields (settled : distinctFolders rules.folders = rules.folders)
    (isRoot : IsRoot rules.root) (located : Path.located surroundings rules.root = .ok root) :
    ofFields surroundings rules.fields = .ok { rules with root } :=
  ofFields_eq_ok_iff.mpr
    ⟨rules.folders, rules.root, rfl, ⟨rfl, isRoot⟩, rfl, rfl, located, settled.symm⟩

/-- Rules get another root by being read from the record that has it. -/
theorem withRoot_eq_ofFields (surroundings : Surroundings) (rules : Rules) (nonempty : root ≠ []) :
    rules.withRoot surroundings (some root) =
      ofFields surroundings { rules with root : Rules }.fields := by
  cases root with
  | nil => exact absurd rfl nonempty
  | cons c rest => rfl

theorem distinctFolders_of_ofFields (accepted : ofFields surroundings fields = .ok rules) :
    distinctFolders rules.folders = rules.folders := by
  rcases ofFields_eq_ok_iff.mp accepted with ⟨folders, _, _, _, _, _, _, distinct⟩
  rw [distinct, distinctFolders_distinctFolders]

theorem withRoot_of_located (settled : distinctFolders rules.folders = rules.folders)
    (isRoot : IsRoot root) {found : Text} (located : Path.located surroundings root = .ok found) :
    rules.withRoot surroundings (some root) = .ok { rules with root := found } := by
  rw [withRoot_eq_ofFields surroundings rules isRoot.nonempty]
  exact @ofFields_fields surroundings { rules with root } found settled isRoot located

theorem isRoot_of_located (rooted : Path.isAbsolute surroundings.cwd = true) {found : Text}
    (located : Path.located surroundings root = .ok found) :
    IsRoot found ∧ Path.located surroundings found = .ok found :=
  ⟨isRoot_of_isAbsolute (Path.isAbsolute_located rooted located),
    Path.located_of_located rooted located⟩

end Rules

namespace Settings

variable {settings : Settings}

/-- An accepted configuration is read back from its own record.  Its docs folders are those of the
configuration it was read from, each where it first stands there, and a root that is accepted by
itself can be put in the place of its root: nothing else changes, and putting the located root there
once more changes nothing at all. -/
theorem ofFields_fields_of_accepted (rooted : Path.isAbsolute surroundings.cwd = true)
    (accepted : ofFields surroundings fields = .ok settings) :
    ofFields surroundings settings.fields = .ok settings ∧
      (∃ links folders, Value.lookup? linksName fields = some (.record links) ∧
        Rules.Gives links Rules.foldersName folders ∧
        Rules.FirstNames folders settings.rules.folders) ∧
      ∀ root alone,
        Rules.ofFields surroundings [(Rules.rootName, .text root)] = .ok alone →
        Path.located surroundings root = .ok alone.root ∧
          let moved : Rules := { settings.rules with root := alone.root }
          settings.rules.withRoot surroundings (some root) = .ok moved ∧
            moved.withRoot surroundings (some moved.root) = .ok moved := by
  rcases ofFields_eq_ok_iff.mp accepted with ⟨links, held, made, _, _⟩
  have settled := Rules.distinctFolders_of_ofFields made
  rcases Rules.ofFields_eq_ok_iff.mp made with
    ⟨folders, _, given, _, _, _, located, distinct⟩
  refine ⟨?_, ⟨links, folders, held, given, ?_⟩, fun root alone acceptedAlone => ?_⟩
  · rcases Rules.isRoot_of_located rooted located with ⟨isRoot, again⟩
    have readBack := Rules.ofFields_fields settled isRoot again
    refine ofFields_eq_ok_iff.mpr ⟨settings.rules.fields, rfl, readBack, ?_, rfl⟩
    cases settings with
    | mk rules level => cases level <;> rfl
  · rw [distinct]
    exact Rules.firstNames_distinctFolders folders
  · rcases Rules.ofFields_eq_ok_iff.mp acceptedAlone with
      ⟨_, other, _, ⟨written, isRoot⟩, _, _, elsewhere, _⟩
    have same : root = other := Value.text.inj (Option.some.inj written)
    rw [← same] at isRoot elsewhere
    rcases Rules.isRoot_of_located rooted elsewhere with ⟨isRootThere, again⟩
    refine ⟨elsewhere, ?_⟩
    intro moved
    have settledThere : Rules.distinctFolders moved.folders = moved.folders := settled
    exact ⟨Rules.withRoot_of_located settled isRoot elsewhere,
      Rules.withRoot_of_located settledThere isRootThere again⟩

/-- Repeated and empty docs folders, and roots in the home directory and with slashes to spare. -/
theorem ofFields_fields_of_accepted_repeated :
    let surroundings : Surroundings := { cwd := "/w", home := "/h" }
    let fields : List (Text × Value) :=
      [("links", .record [("dataset_root", .text "~//x/./y/"),
        ("docs_folders", Value.texts ["b", "", "a", "b"])])]
    let settings : Settings :=
      { rules := { folders := ["b", "a"], root := "/h/x/y", exclusions := [] }, level := .info }
    let moved : Rules := { folders := ["b", "a"], root := "//up/../z", exclusions := [] }
    (Path.isAbsolute surroundings.cwd = true ∧
        ofFields surroundings fields = .ok settings) ∧
      ofFields surroundings settings.fields = .ok settings ∧
      settings.rules.withRoot surroundings (some "//up//../z/.") = .ok moved ∧
      moved.withRoot surroundings (some moved.root) = .ok moved := by
  intro surroundings fields settings moved
  have rooted : Path.isAbsolute surroundings.cwd = true := by decide
  have accepted : ofFields surroundings fields = .ok settings := by decide +kernel
  have alone : Rules.ofFields surroundings [(Rules.rootName, .text "//up//../z/.")] =
      .ok { folders := [], root := "//up/../z", exclusions := [] } := by decide +kernel
  have fixed := ofFields_fields_of_accepted rooted accepted
  exact ⟨⟨rooted, accepted⟩, fixed.1, (fixed.2.2 _ _ alone).2⟩

end Settings
end Crosslink

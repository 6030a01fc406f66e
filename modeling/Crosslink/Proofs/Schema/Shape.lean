import Crosslink.Schema.Shape
import Mathlib.Data.List.Forall2

namespace Crosslink
namespace Schema

/-!
Data that is in shape already.  A value that has the shape asked for, and does not merely stand
for one that has it, is taken over as it is; and so are the fields of a record that names the
fields of a schema in their order.  What a check gives back, whatever it was made from, is in
shape, so that checking it once more changes nothing.
-/

def Shape.Fits : Shape → Value → Prop
  | .anything, _ => True
  | .text, value => ∃ t, value = .text t
  | .integer, value => ∃ n, value = .integer n
  | .boolean, value => ∃ b, value = .boolean b
  | .listOf item, value => ∃ items, value = .list items ∧ ∀ part ∈ items, item.Fits part
  | .recordOf shape, value =>
    ∃ fields, value = .record fields ∧ ∀ field ∈ fields, shape.Fits field.2

/-! ## Values -/

@[simp] theorem Checked.all_map_ok {α : Type} (items : List α) :
    Checked.all (items.map .ok) = .ok items := by
  induction items with
  | nil => rfl
  | cons first rest inductionHypothesis =>
      rw [List.map_cons, Checked.all, inductionHypothesis]
      rfl

/-- All results are there exactly if each of them is. -/
theorem Checked.all_eq_ok_iff {α : Type} {results : List (Checked α)} {items : List α} :
    Checked.all results = .ok items ↔ results = items.map .ok := by
  constructor
  · intro passed
    induction results generalizing items with
    | nil =>
        cases passed
        rfl
    | cons first rest inductionHypothesis =>
        rw [Checked.all] at passed
        cases first with
        | error mismatches => cases passed
        | ok item =>
            cases later : Checked.all rest with
            | error mismatches =>
                rw [later] at passed
                cases passed
            | ok others =>
                rw [later] at passed
                cases passed
                rw [inductionHypothesis later, List.map_cons]
  · rintro rfl
    exact Checked.all_map_ok items

theorem Checked.below_eq_ok_iff {α : Type} {step : Step} {checked : Checked α} {item : α} :
    Checked.below step checked = .ok item ↔ checked = .ok item := by
  cases checked with
  | ok found => exact Iff.rfl
  | error mismatches =>
      exact iff_of_false nofun nofun

theorem Checked.map_eq_ok_iff {α β : Type} {build : α → β} {checked : Checked α} {built : β} :
    checked.map build = .ok built ↔ ∃ item, checked = .ok item ∧ build item = built := by
  cases checked with
  | ok found =>
      constructor
      · intro same
        exact ⟨found, rfl, Except.ok.inj same⟩
      · rintro ⟨item, same, rfl⟩
        cases same
        rfl
  | error mismatches =>
      exact iff_of_false nofun fun ⟨_, impossible, _⟩ => nomatch impossible

theorem check_of_fits {shape : Shape} {value : Value} (fits : shape.Fits value) :
    check shape value = .ok value := by
  induction shape generalizing value with
  | anything => rfl
  | text =>
      rcases fits with ⟨_, rfl⟩
      rfl
  | integer =>
      rcases fits with ⟨_, rfl⟩
      rfl
  | boolean =>
      rcases fits with ⟨_, rfl⟩
      rfl
  | listOf item inductionHypothesis =>
      rcases fits with ⟨items, rfl, each⟩
      have passed : items.mapIdx (fun index part => Checked.below (.item index) (check item part)) =
          items.map .ok := by
        refine List.ext_getElem (by rw [List.length_mapIdx, List.length_map]) ?_
        intro index inside _
        rw [List.getElem_mapIdx, List.getElem_map,
          inductionHypothesis (each _ (List.getElem_mem _))]
        rfl
      rw [check, passed, Checked.all_map_ok]
      rfl
  | recordOf shape inductionHypothesis =>
      rcases fits with ⟨fields, rfl, each⟩
      have passed : (fields.map fun field =>
          (Checked.below (.field field.1) (check shape field.2)).map fun part => (field.1, part)) =
          fields.map .ok := by
        refine List.map_congr_left fun field member => ?_
        rw [inductionHypothesis (each field member)]
        rfl
      rw [check, passed, Checked.all_map_ok]
      rfl

theorem checkedHere_eq_ok_iff {α : Type} {build : α → Value} {found : Except Difference α}
    {value : Value} :
    checkedHere build found = .ok value ↔ ∃ a, found = .ok a ∧ build a = value := by
  cases found with
  | ok a =>
      constructor
      · intro same
        exact ⟨a, rfl, Except.ok.inj same⟩
      · rintro ⟨other, same, rfl⟩
        cases same
        rfl
  | error difference =>
      exact iff_of_false nofun fun ⟨_, impossible, _⟩ => nomatch impossible

/-- What is taken over has the shape, whether it was there or was stood for. -/
theorem fits_of_check {shape : Shape} {given value : Value}
    (accepted : check shape given = .ok value) : shape.Fits value := by
  induction shape generalizing given value with
  | anything => trivial
  | text =>
      cases given with
      | text t =>
          cases accepted
          exact ⟨t, rfl⟩
      | _ => cases accepted
  | integer =>
      rcases checkedHere_eq_ok_iff.mp accepted with ⟨n, _, rfl⟩
      exact ⟨n, rfl⟩
  | boolean =>
      rcases checkedHere_eq_ok_iff.mp accepted with ⟨b, _, rfl⟩
      exact ⟨b, rfl⟩
  | listOf item inductionHypothesis =>
      cases given with
      | list parts =>
          rcases Checked.map_eq_ok_iff.mp accepted with ⟨items, passed, rfl⟩
          refine ⟨items, rfl, fun part member => ?_⟩
          have among : Except.ok part ∈ parts.mapIdx fun index value =>
              Checked.below (.item index) (check item value) := by
            rw [Checked.all_eq_ok_iff.mp passed]
            exact List.mem_map_of_mem member
          rcases List.mem_mapIdx.mp among with ⟨index, inside, checked⟩
          exact inductionHypothesis (Checked.below_eq_ok_iff.mp checked)
      | _ => cases accepted
  | recordOf shape inductionHypothesis =>
      cases given with
      | record parts =>
          rcases Checked.map_eq_ok_iff.mp accepted with ⟨fields, passed, rfl⟩
          refine ⟨fields, rfl, fun field member => ?_⟩
          have among : Except.ok field ∈ parts.map fun part =>
              (Checked.below (.field part.1) (check shape part.2)).map
                fun value => (part.1, value) := by
            rw [Checked.all_eq_ok_iff.mp passed]
            exact List.mem_map_of_mem member
          rcases List.mem_map.mp among with ⟨part, _, checked⟩
          rcases Checked.map_eq_ok_iff.mp checked with ⟨value, below, rfl⟩
          exact inductionHypothesis (Checked.below_eq_ok_iff.mp below)
      | _ => cases accepted

/-! ## Records -/

/-- A field is looked for among the first fields before it is looked for among others. -/
@[simp] theorem lookup?_append (name : Text) (first second : List (Text × Value)) :
    Value.lookup? name (first ++ second) =
      (Value.lookup? name first).or (Value.lookup? name second) := by
  induction first with
  | nil => rfl
  | cons field rest inductionHypothesis =>
      rw [List.cons_append, Value.lookup?, Value.lookup?, inductionHypothesis]
      split <;> rfl

theorem lookup?_of_mem {fields : List (Text × Value)} (distinct : (fields.map (·.1)).Nodup)
    {entry : Text × Value} (member : entry ∈ fields) :
    Value.lookup? entry.1 fields = some entry.2 := by
  induction fields with
  | nil => exact absurd member List.not_mem_nil
  | cons first rest inductionHypothesis =>
      rw [List.map_cons, List.nodup_cons] at distinct
      rw [Value.lookup?]
      rcases List.mem_cons.mp member with same | later
      · rw [same, if_pos rfl]
      · have different : first.1 ≠ entry.1 := fun same =>
          distinct.1 (same ▸ List.mem_map_of_mem later)
        rw [if_neg different]
        exact inductionHypothesis distinct.2 later

/-- The fields are those of the schema in their order, each with a value of its shape. -/
def InShape (schema : List Field) (fields : List (Text × Value)) : Prop :=
  List.Forall₂ (fun field entry => field.name = entry.1 ∧ field.shape.Fits entry.2) schema fields

theorem InShape.names {schema : List Field} {fields : List (Text × Value)}
    (inShape : InShape schema fields) : schema.map (·.name) = fields.map (·.1) := by
  induction inShape with
  | nil => rfl
  | cons fits _ inductionHypothesis =>
      rw [List.map_cons, List.map_cons, fits.1, inductionHypothesis]

/-- Fields that are in shape are taken over as they are. -/
theorem InShape.fill {schema : List Field} {fields : List (Text × Value)}
    (inShape : InShape schema fields) (distinct : (schema.map (·.name)).Nodup) :
    Schema.fill schema fields = .ok fields := by
  rw [inShape.names] at distinct
  have found : ∀ entry ∈ fields, Value.lookup? entry.1 fields = some entry.2 :=
    fun entry member => lookup?_of_mem distinct member
  have passed : ∀ {schema part}, InShape schema part → (∀ entry ∈ part, entry ∈ fields) →
      (schema.map fun field => (field.checkIn fields).map fun value => (field.name, value)) =
        part.map .ok := by
    intro schema part inShape within
    induction inShape with
    | nil => rfl
    | @cons field entry _ _ fits _ inductionHypothesis =>
        have held := found entry (within entry List.mem_cons_self)
        rw [List.map_cons, List.map_cons,
          inductionHypothesis fun other member => within other (List.mem_cons_of_mem entry member),
          Field.checkIn, fits.1, held]
        dsimp only
        rw [check_of_fits fits.2]
        rfl
  rw [Schema.fill, passed inShape fun _ member => member, Checked.all_map_ok]

/-! ## Fields that are filled in -/

namespace Field

/-- The value that a field has where it is missing is one of its shape. -/
def IsSound (field : Field) : Prop :=
  ∀ value, field.default? = some value → field.shape.Fits value

theorem isSound_required (name : Text) (shape : Shape) : (required name shape).IsSound := by
  intro value impossible
  cases impossible

theorem isSound_listing (name : Text) (item : Shape) : (listing name item).IsSound := by
  intro value given
  cases given
  exact ⟨[], rfl, fun _ impossible => absurd impossible List.not_mem_nil⟩

variable {field : Field} {fields : List (Text × Value)} {value : Value}

theorem checkIn_eq_ok_iff :
    field.checkIn fields = .ok value ↔
      match Value.lookup? field.name fields with
      | some given => check field.shape given = .ok value
      | none => field.default? = some value := by
  rw [checkIn, Checked.below_eq_ok_iff]
  cases Value.lookup? field.name fields with
  | some given => exact Iff.rfl
  | none =>
      cases field.default? with
      | some usual =>
          constructor
          · intro same
            exact congrArg some (Except.ok.inj same)
          · intro same
            exact congrArg Except.ok (Option.some.inj same)
      | none =>
          exact iff_of_false nofun nofun

theorem IsSound.fits_of_checkIn (sound : field.IsSound)
    (taken : field.checkIn fields = .ok value) : field.shape.Fits value := by
  have made := checkIn_eq_ok_iff.mp taken
  split at made
  · exact fits_of_check made
  · exact sound value made

end Field

variable {schema : List Field} {fields filled : List (Text × Value)}

theorem fill_eq_ok_iff :
    fill schema fields = .ok filled ↔
      List.Forall₂ (fun field entry => field.name = entry.1 ∧ field.checkIn fields = .ok entry.2)
        schema filled := by
  rw [fill, Checked.all_eq_ok_iff, ← List.forall₂_eq_eq_eq, List.forall₂_map_left_iff,
    List.forall₂_map_right_iff]
  refine iff_of_eq (congrArg (fun related => List.Forall₂ related schema filled) ?_)
  funext field entry
  rw [eq_iff_iff, Checked.map_eq_ok_iff]
  constructor
  · rintro ⟨value, taken, rfl⟩
    exact ⟨rfl, taken⟩
  · rintro ⟨named, taken⟩
    exact ⟨entry.2, taken, by rw [named]⟩

theorem inShape_of_fill (sound : ∀ field ∈ schema, field.IsSound)
    (accepted : fill schema fields = .ok filled) : InShape schema filled := by
  have made := fill_eq_ok_iff.mp accepted
  clear accepted
  induction made with
  | nil => exact .nil
  | @cons field entry _ _ taken _ inductionHypothesis =>
      have fits := (sound field List.mem_cons_self).fits_of_checkIn taken.2
      exact .cons ⟨taken.1, fits⟩
        (inductionHypothesis fun other later => sound other (List.mem_cons_of_mem field later))

theorem lookup?_of_fill (distinct : (schema.map (·.name)).Nodup)
    (sound : ∀ field ∈ schema, field.IsSound) (accepted : fill schema fields = .ok filled)
    {field : Field} (member : field ∈ schema) :
    ∃ value, Value.lookup? field.name filled = some value ∧ field.checkIn fields = .ok value := by
  rw [(inShape_of_fill sound accepted).names] at distinct
  have made := fill_eq_ok_iff.mp accepted
  rcases List.mem_iff_getElem.mp member with ⟨index, inside, rfl⟩
  have also : index < filled.length := made.length_eq ▸ inside
  have taken := List.Forall₂.get made inside also
  refine ⟨filled[index].2, ?_, taken.2⟩
  rw [show schema[index].name = filled[index].1 from taken.1]
  exact lookup?_of_mem distinct (List.getElem_mem also)

end Schema
end Crosslink

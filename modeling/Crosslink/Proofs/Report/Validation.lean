import Crosslink.Command.Check
import Crosslink.Command.Config
import Crosslink.Command.Show
import Crosslink.Command.Style
import Crosslink.Proofs.Schema.Shape
import Crosslink.Report.Schema

namespace Crosslink
namespace Report

/-!
The reports of the commands as they are written.  The fields of a report are those of its schema,
in their order and with values of their shapes, so that bringing a report into the shape of its
schema changes nothing.
-/

theorem validate_of_inShape {module function domain command : Text} {schema : List Schema.Field}
    {fields : List (Text × Value)} (known : commandOf? module function = some (domain, command))
    (found : schema? domain command = some schema) (distinct : (schema.map (·.name)).Nodup)
    (inShape : Schema.InShape schema fields) : validate module function fields = .ok fields := by
  rw [validate, known]
  dsimp only
  rw [found]
  dsimp only
  rw [inShape.fill distinct]

theorem fits_texts (lines : List Text) :
    (Schema.Shape.listOf .text).Fits (Value.texts lines) := by
  refine ⟨_, rfl, fun value member => ?_⟩
  rcases List.mem_map.mp member with ⟨line, _, rfl⟩
  exact ⟨line, rfl⟩

theorem inShape_opening (errors : List Text) : Schema.InShape baseFields
    [("errors", Value.texts errors), ("warnings", Value.texts [])] :=
  .cons ⟨rfl, fits_texts errors⟩ (.cons ⟨rfl, fits_texts []⟩ .nil)

theorem inShape_batchOutput (target : Text) (errors : List Text) (summary : Batch.Summary) :
    Schema.InShape batchFields (batchOutput target errors summary) := by
  have counted : (Schema.Shape.recordOf .integer).Fits
      (.record (summary.tally.map fun entry => (entry.1, .natural entry.2))) := by
    refine ⟨_, rfl, fun field member => ?_⟩
    rcases List.mem_map.mp member with ⟨entry, _, rfl⟩
    exact ⟨_, rfl⟩
  exact List.rel_append (inShape_opening errors)
    (.cons ⟨rfl, _, rfl⟩ (.cons ⟨rfl, _, rfl⟩ (.cons ⟨rfl, _, rfl⟩ (.cons ⟨rfl, _, rfl⟩
      (.cons ⟨rfl, counted⟩ (.cons ⟨rfl, fits_texts _⟩ .nil))))))

theorem inShape_showOutput (errors : List Text) (target : Text) (links : List FileLink) :
    Schema.InShape showFields (Command.showOutput errors target links) := by
  refine List.rel_append (inShape_opening errors)
    (.cons ⟨rfl, _, rfl⟩ (.cons ⟨rfl, _, rfl, ?_⟩ (.cons ⟨rfl, _, rfl⟩ .nil)))
  intro value member
  rcases List.mem_map.mp member with ⟨found, _, rfl⟩
  exact ⟨_, rfl, fun _ _ => trivial⟩

theorem inShape_styleOutput (errors : List Text) (target style : Text) :
    Schema.InShape styleFields (Command.styleOutput errors target style) :=
  List.rel_append (inShape_opening errors) (.cons ⟨rfl, _, rfl⟩ (.cons ⟨rfl, _, rfl⟩ .nil))

theorem inShape_checkFields (fix : Bool) (broken : List BrokenLink) : Schema.InShape
    [.required "fix" .boolean, .required "broken_links" (.listOf (.recordOf .anything))]
    (Command.checkFields fix broken) := by
  refine .cons ⟨rfl, _, rfl⟩ (.cons ⟨rfl, _, rfl, ?_⟩ .nil)
  intro value member
  rcases List.mem_map.mp member with ⟨link, _, rfl⟩
  exact ⟨_, rfl, fun _ _ => trivial⟩

/-!
## Bringing reports into shape

Only the module and the name of a function decide what becomes of its report: a function that stands
for no command with a schema has its report taken as it is, and any other report comes out with the
fields of the schema.  As every schema names each of its fields once, and what it gives for a
missing field is a value of that field, a report that has been brought into shape stays as it is
when that is done once more.
-/

open Schema

/-- The schema for the reports of a function of a module, if there is one. -/
def schemaOf? (module function : Text) : Option (List Field) :=
  (commandOf? module function).bind fun command => schema? command.1 command.2

variable {module function : Text} {schema : List Field} {fields shaped : List (Text × Value)}

theorem validate_of_no_schema (none : schemaOf? module function = none)
    (fields : List (Text × Value)) : validate module function fields = .ok fields := by
  rw [schemaOf?] at none
  rw [validate]
  cases command : commandOf? module function with
  | none => rfl
  | some names =>
      rw [command, Option.bind_some] at none
      dsimp only
      rw [none]

theorem validate_eq_ok_iff (found : schemaOf? module function = some schema) :
    validate module function fields = .ok shaped ↔ fill schema fields = .ok shaped := by
  rw [schemaOf?] at found
  rw [validate]
  cases command : commandOf? module function with
  | none =>
      rw [command] at found
      cases found
  | some names =>
      rw [command, Option.bind_some] at found
      dsimp only
      rw [found]
      dsimp only
      cases fill schema fields with
      | ok filled => rw [Except.ok.injEq, Except.ok.injEq]
      | error mismatches =>
          exact iff_of_false nofun nofun

/-! ## What the schemas are like -/

/-- The names of the fields differ, and values for missing fields are values of the fields. -/
structure Regular (schema : List Field) : Prop where
  distinct : (schema.map (·.name)).Nodup
  sound : ∀ field ∈ schema, field.IsSound

theorem regular_of_mem_schemas {entry : (Text × Text) × List Field} (member : entry ∈ schemas) :
    Regular entry.2 := by
  have distinct : ∀ entry ∈ schemas, (entry.2.map (·.name)).Nodup := by decide +kernel
  -- Each field of a schema is made in one of two ways.
  have sound : ∀ entry ∈ schemas, ∀ field ∈ entry.2, field.IsSound := by
    simp only [schemas, configFields, showFields, checkFields, normalizeFields, substituteFields,
      styleFields, batchFields, baseFields, List.cons_append, List.nil_append,
      List.forall_mem_cons, List.not_mem_nil, false_implies, implies_true, and_self,
      Field.isSound_listing, Field.isSound_required]
  exact ⟨distinct entry member, sound entry member⟩

theorem regular_of_schemaOf? (found : schemaOf? module function = some schema) :
    Regular schema := by
  rcases Option.bind_eq_some_iff.mp found with ⟨command, _, listed⟩
  rcases List.lookup_eq_some_iff.mp listed with ⟨before, after, split, _⟩
  exact regular_of_mem_schemas (split ▸ List.mem_append_right _ List.mem_cons_self)

/-! ## Reports that have been brought into shape -/

/-- A report that has been brought into shape is left as it is when that is done once more.  With a
schema it has the fields of the schema and no others, each made from the field of its name or, where
there is none, with the value for a missing field; without a schema it is the report that was
given. -/
theorem validate_validated (validated : validate module function fields = .ok shaped) :
    validate module function shaped = .ok shaped ∧
      (schemaOf? module function = none → shaped = fields) ∧
      ∀ schema, schemaOf? module function = some schema →
        shaped.map (·.1) = schema.map (·.name) ∧
          ∀ field ∈ schema, ∃ value, Value.lookup? field.name shaped = some value ∧
            match Value.lookup? field.name fields with
            | some given => check field.shape given = .ok value
            | none => field.default? = some value := by
  cases found : schemaOf? module function with
  | none =>
      have same : shaped = fields := by
        rw [validate_of_no_schema found] at validated
        exact (Except.ok.inj validated).symm
      refine ⟨validate_of_no_schema found shaped, fun _ => same, fun schema impossible => ?_⟩
      cases impossible
  | some schema =>
      have filled := (validate_eq_ok_iff found).mp validated
      have regular := regular_of_schemaOf? found
      have inShape := inShape_of_fill regular.sound filled
      refine ⟨(validate_eq_ok_iff found).mpr (inShape.fill regular.distinct),
        fun impossible => ?_, fun other same => ?_⟩
      · cases impossible
      · cases same
        refine ⟨inShape.names.symm, fun field member => ?_⟩
        rcases lookup?_of_fill regular.distinct regular.sound filled member with
          ⟨value, held, taken⟩
        exact ⟨value, held, Field.checkIn_eq_ok_iff.mp taken⟩

/-- A report with words for numbers and truth values, without its lists of errors and warnings, and
with a field that no one asked for. -/
theorem validate_validated_words :
    let given : List (Text × Value) :=
      [("by_kind", .record [("patched", .text "+1")]), ("broken_links", .list [.record []]),
        ("fix", .text "Yes"), ("modified_files", .list [.text "d/a.md"]), ("path", .text "d"),
        ("processed_files", .boolean true), ("surplus", .null), ("total_files", .text " 02.0"),
        ("total_replacements_applied", .number (.finite false 0x10000000000000 (-52)))]
    let shaped : List (Text × Value) :=
      [("errors", .list []), ("warnings", .list []), ("path", .text "d"),
        ("total_files", .integer 2), ("processed_files", .integer 1),
        ("total_replacements_applied", .integer 1), ("by_kind", .record [("patched", .integer 1)]),
        ("modified_files", .list [.text "d/a.md"]), ("fix", .boolean true),
        ("broken_links", .list [.record []])]
    validate "mdlinks.api.link.cmd_check" "cmd_check" given = .ok shaped ∧
      validate "mdlinks.api.link.cmd_check" "cmd_check" shaped = .ok shaped := by
  intro given shaped
  have validated : validate "mdlinks.api.link.cmd_check" "cmd_check" given = .ok shaped := by
    rfl
  exact ⟨validated, (validate_validated validated).1⟩

end Report
end Crosslink

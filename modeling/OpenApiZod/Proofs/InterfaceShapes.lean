import Mathlib.Tactic.Common
import OpenApiZod.Module.Operation
import OpenApiZod.Proofs.Tables

/-!
# Where the shapes of an interface come from

`Document.schemas` lists the schemas that stand in a document: those of its components and those of
the bodies of requests and responses, in the paths and among the components. An interface has no
shape but theirs. Resolving a reference leads to another body of the document, and merging the
records of one name keeps or drops bodies, so all that holds of the shapes of a document's schemas
holds of the shapes of its interface (`Api.exists_schema_of_mem_shapes`).
-/

namespace OpenApiZod

/-! ### The schemas of a document -/

/-- The schemas of a part that stands in its place. -/
def OrReference.schemas {α : Type} (schemas : α → List Schema) : OrReference α → List Schema
  | .reference _ => []
  | .inline value => schemas value

/-- The schemas of a body, one for each form that has one. -/
def Content.schemas (content : Content) : List Schema := content.values.filterMap (·.schema)

/-- The schemas of a request body. -/
def RequestBody.schemas (body : RequestBody) : List Schema := Content.schemas body.content

/-- The schemas of a response. -/
def Response.schemas (r : Response) : List Schema := Content.schemas r.content

/-- The schemas of an operation. -/
def Operation.schemas (o : Operation) : List Schema :=
  o.requestBody.toList.flatMap (·.schemas RequestBody.schemas) ++
    o.responses.values.flatMap (·.schemas Response.schemas)

/-- The schemas of a path. -/
def PathItem.schemas (item : PathItem) : List Schema := item.operations.flatMap (·.2.schemas)

/-- The schemas of components, those of the bodies among them included. -/
def Components.allSchemas (components : Components) : List Schema :=
  components.schemas.values ++ components.responses.values.flatMap (·.schemas Response.schemas) ++
    components.requestBodies.values.flatMap (·.schemas RequestBody.schemas)

/-- The schemas of a document. -/
def Document.schemas (d : Document) : List Schema :=
  d.paths.toList.flatMap (·.values.flatMap PathItem.schemas) ++
    d.components.toList.flatMap Components.allSchemas

/-- The values of a table are what its names have. -/
theorem Table.mem_values_iff {α : Type} {t : Table α} {value : α} :
    value ∈ t.values ↔ ∃ key, t.get? key = some value := by
  simp only [values, List.mem_map, ← mem_entries_iff, Prod.exists, exists_eq_right]

namespace Api

/-- The shapes of an interface: those of its components and of the bodies of its operations. -/
def shapes (api : Api) : List Shape :=
  api.components.values.map (·.shape) ++ api.operations.values.flatMap OperationModule.bodies

/-! ### Bodies -/

/-- The shape of a body is that of one of its schemas. -/
theorem exists_schema_of_bodyShape {content : Content} {shape : Shape}
    (h : bodyShape content = some shape) :
    ∃ s ∈ Content.schemas content, shape = .ofSchema s := by
  obtain ⟨media, hmedia, h⟩ := Option.bind_eq_some_iff.mp h
  obtain ⟨s, hs, rfl⟩ := Option.map_eq_some_iff.mp h
  refine ⟨s, List.mem_filterMap.mpr ⟨media, ?_, hs⟩, rfl⟩
  rcases Option.or_eq_some_iff.mp hmedia with hjson | ⟨-, hfirst⟩
  · exact Table.mem_values_iff.mpr ⟨_, hjson⟩
  · exact List.mem_of_mem_head? hfirst

/-- What is found is the part itself, or one of the parts that references point to. -/
theorem mem_schemas_of_resolve {α : Type} {table : String} {parts : Table (OrReference α)}
    {part : OrReference α} {value : α} (h : (resolve table parts part).value = some value)
    (schemas : α → List Schema) {s : Schema} (hs : s ∈ schemas value) :
    s ∈ part.schemas schemas ++ parts.values.flatMap (·.schemas schemas) := by
  cases part with
  | inline own =>
      obtain rfl := Option.some.inj h
      exact List.mem_append_left _ hs
  | reference target =>
      simp only [resolve] at h
      split at h
      · exact nomatch h
      · split at h
        · rename_i other hother
          obtain rfl := Option.some.inj h
          exact List.mem_append_right _ (List.mem_flatMap.mpr
            ⟨_, Table.mem_values_iff.mpr ⟨_, hother⟩, hs⟩)
        · exact nomatch h

/-- The schemas of the bodies that references point to are among those of the components. -/
theorem mem_allSchemas_of_requestBody {components : Option Components} {s : Schema}
    (h : s ∈ ((components.map Components.requestBodies).getD Table.empty).values.flatMap
      (·.schemas RequestBody.schemas)) :
    s ∈ components.toList.flatMap Components.allSchemas := by
  cases components with
  | none => exact absurd h List.not_mem_nil
  | some components => exact List.mem_append_left _ (List.mem_append_right _ h)

/-- The schemas of named responses are schemas of the components. -/
theorem mem_allSchemas_of_response {components : Option Components} {s : Schema}
    (h : s ∈ ((components.map Components.responses).getD Table.empty).values.flatMap
      (·.schemas Response.schemas)) :
    s ∈ components.toList.flatMap Components.allSchemas := by
  cases components with
  | none => exact absurd h List.not_mem_nil
  | some components =>
      exact List.mem_append_left _ (List.mem_append_left _ (List.mem_append_right _ h))

/-! ### Records -/

section Records

variable {P : Shape → Prop}

/-- What holds of all bodies of a record. -/
def OperationRecord.All (P : Shape → Prop) (r : OperationRecord) : Prop :=
  ∀ shape ∈ OperationModule.bodies r, P shape

/-- What holds of all bodies of a record holds of its request body and of those of its responses. -/
theorem OperationRecord.all_iff {r : OperationRecord} :
    OperationRecord.All P r ↔ (∀ shape, r.requestBody = some shape → P shape) ∧
      ∀ status response, r.responses.get? status = some response →
        ∀ shape, response.body = some shape → P shape := by
  simp only [OperationRecord.All, OperationModule.bodies, List.forall_mem_append,
    Option.mem_toList, List.mem_filterMap, Table.mem_values_iff]
  refine and_congr_right fun _ => ⟨fun h status response hresponse shape hshape =>
    h shape ⟨response, ⟨status, hresponse⟩, hshape⟩, ?_⟩
  rintro h shape ⟨response, ⟨status, hresponse⟩, hshape⟩
  exact h status response hresponse shape hshape

/-- A merged record has no other bodies than the two. -/
theorem OperationRecord.All.merge {first later : OperationRecord}
    (hfirst : OperationRecord.All P first) (hlater : OperationRecord.All P later) :
    OperationRecord.All P (OperationRecord.merge first later) := by
  rw [OperationRecord.all_iff] at hfirst hlater ⊢
  refine ⟨fun shape hshape => ?_, fun status response hresponse => ?_⟩
  · rcases Option.or_eq_some_iff.mp hshape with hnew | ⟨-, hold⟩
    · exact hlater.1 shape hnew
    · exact hfirst.1 shape hold
  · rcases Table.mem_of_get?_extend hresponse with hnew | hold
    · exact hlater.2 status response (Table.mem_entries_iff.mp hnew)
    · exact hfirst.2 status response hold

/-- Merging brings no body that the merged records do not have. -/
theorem all_addRecord {records : Table OperationRecord} {record : OperationRecord}
    (hrecords : ∀ r ∈ records.values, OperationRecord.All P r)
    (hrecord : OperationRecord.All P record) :
    ∀ r ∈ (addRecord records record).values, OperationRecord.All P r := by
  have hinsert {value : OperationRecord} (hvalue : OperationRecord.All P value) :
      ∀ r ∈ (records.insert record.operationId value).values, OperationRecord.All P r := by
    intro r hr
    obtain ⟨id, hid⟩ := Table.mem_values_iff.mp hr
    rw [Table.get?_insert] at hid
    split at hid
    · exact Option.some.inj hid ▸ hvalue
    · exact hrecords r (Table.mem_values_iff.mpr ⟨id, hid⟩)
  rw [addRecord]
  split
  · rename_i first hfirst
    exact hinsert ((hrecords first (Table.mem_values_iff.mpr ⟨_, hfirst⟩)).merge hrecord)
  · exact hinsert hrecord

/-- Nor have records that are added one after the other. -/
theorem all_addRecords {rs : List (Checked OperationRecord)} {records : Table OperationRecord}
    (hrecords : ∀ r ∈ records.values, OperationRecord.All P r)
    (hrs : ∀ r ∈ rs, OperationRecord.All P r.value) :
    ∀ r ∈ (rs.foldl (fun t r => addRecord t r.value) records).values,
      OperationRecord.All P r := by
  induction rs generalizing records with
  | nil => exact hrecords
  | cons r rest ih =>
      rw [List.forall_mem_cons] at hrs
      exact ih (all_addRecord hrecords hrs.1) hrs.2

end Records

/-! ### Interfaces -/

/-- The shape of a schema that stands in a document. -/
def HasSchemaOf (d : Document) (shape : Shape) : Prop := ∃ s ∈ d.schemas, shape = .ofSchema s

/-- The bodies of an entry's record are shapes of schemas of the document. -/
theorem hasSchemaOf_entryRecord (naming : Naming) {d : Document} {paths : Table PathItem}
    (hpaths : d.paths = some paths) {path : String} {item : PathItem}
    (hitem : (path, item) ∈ paths.entries) {method : Method} {operation : Operation}
    (hoperation : (method, operation) ∈ item.operations) :
    OperationRecord.All (HasSchemaOf d)
      (entryRecord naming d.components path item method operation).value := by
  have hown : ∀ s ∈ operation.schemas, s ∈ d.schemas := by
    intro s hs
    refine List.mem_append_left _ (List.mem_flatMap.mpr ⟨paths, hpaths ▸ List.mem_singleton_self _,
      List.mem_flatMap.mpr ⟨item, List.mem_map_of_mem hitem, ?_⟩⟩)
    exact List.mem_flatMap.mpr ⟨(method, operation), hoperation, hs⟩
  have hshared : ∀ s ∈ d.components.toList.flatMap Components.allSchemas, s ∈ d.schemas :=
    fun s hs => List.mem_append_right _ hs
  rw [OperationRecord.all_iff]
  refine ⟨fun shape hshape => ?_, fun status response hresponse shape hshape => ?_⟩
  · replace hshape : (requestShape d.components operation.requestBody).value = some shape := hshape
    cases hbody : operation.requestBody with
    | none =>
        rw [hbody] at hshape
        exact nomatch hshape
    | some body =>
        rw [hbody] at hshape
        obtain ⟨found, hfound, hshape⟩ := Option.bind_eq_some_iff.mp hshape
        obtain ⟨s, hs, rfl⟩ := exists_schema_of_bodyShape hshape
        refine ⟨s, ?_, rfl⟩
        rcases List.mem_append.mp (mem_schemas_of_resolve hfound RequestBody.schemas hs)
          with hin | hin
        · refine hown s (List.mem_append_left _ (List.mem_flatMap.mpr ⟨body, ?_, hin⟩))
          rw [hbody]
          exact List.mem_singleton_self _
        · exact hshared s (mem_allSchemas_of_requestBody hin)
  · replace hresponse : ((operation.responses.mapWithKey fun _ r =>
        responseRecord d.components r).mapWithKey fun _ r => r.value).get? status =
          some response := hresponse
    rw [Table.get?_mapWithKey, Table.get?_mapWithKey, Option.map_map] at hresponse
    obtain ⟨declared, hdeclared, rfl⟩ := Option.map_eq_some_iff.mp hresponse
    replace hshape : (responseRecord d.components declared).value.body = some shape := hshape
    rw [responseRecord] at hshape
    split at hshape
    · rename_i found hfound
      obtain ⟨s, hs, rfl⟩ := exists_schema_of_bodyShape hshape
      refine ⟨s, ?_, rfl⟩
      rcases List.mem_append.mp (mem_schemas_of_resolve hfound Response.schemas hs) with hin | hin
      · exact hown s (List.mem_append_right _ (List.mem_flatMap.mpr
          ⟨declared, Table.mem_values_iff.mpr ⟨status, hdeclared⟩, hin⟩))
      · exact hshared s (mem_allSchemas_of_response hin)
    · exact nomatch hshape

/-- Each shape of an interface is the shape of a schema of its document. -/
theorem exists_schema_of_mem_shapes {naming : Naming} {d : Document} {checked : Checked Api}
    (h : ofDocument naming d = .ok checked) :
    ∀ shape ∈ checked.value.shapes, ∃ s ∈ d.schemas, shape = .ofSchema s := by
  rw [ofDocument] at h
  split at h
  · exact nomatch h
  obtain rfl := Except.ok.inj h
  refine List.forall_mem_append.mpr ⟨List.forall_mem_map.mpr fun component hcomponent => ?_,
    fun shape hshape => ?_⟩
  · obtain ⟨name, hname⟩ := Table.mem_values_iff.mp hcomponent
    replace hname : (componentsOf d).get? name = some component := hname
    rw [componentsOf] at hname
    split at hname
    · rename_i components hcomponents
      rw [Table.get?_mapWithKey] at hname
      obtain ⟨s, hs, rfl⟩ := Option.map_eq_some_iff.mp hname
      refine ⟨s, List.mem_append_right _ ?_, rfl⟩
      rw [hcomponents]
      exact List.mem_flatMap.mpr ⟨components, List.mem_singleton_self _, List.mem_append_left _
        (List.mem_append_left _ (Table.mem_values_iff.mpr ⟨name, hs⟩))⟩
    · exact nomatch hname
  · have hall : ∀ r ∈ entryRecords naming d, OperationRecord.All (HasSchemaOf d) r.value := by
      intro r hr
      obtain ⟨⟨path, item⟩, hitem, hr⟩ := List.mem_flatMap.mp hr
      obtain ⟨⟨method, operation⟩, hoperation, rfl⟩ := List.mem_map.mp hr
      cases hpaths : d.paths with
      | none =>
          rw [hpaths] at hitem
          exact nomatch hitem
      | some paths =>
          rw [hpaths] at hitem
          exact hasSchemaOf_entryRecord naming hpaths hitem hoperation
    obtain ⟨r, hr, hshape⟩ := List.mem_flatMap.mp hshape
    exact all_addRecords (fun _ hr => absurd hr List.not_mem_nil) hall r hr shape hshape

end Api

end OpenApiZod

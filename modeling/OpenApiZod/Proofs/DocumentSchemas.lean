import OpenApiZod.Api

/-!
# The schemas of a document

`Document.mapSchemas` rewrites all schemas of a document, wherever they stand: those of components
and those of the bodies of requests and responses. An interface takes from a schema its description
and its shape, so a rewriting that keeps these leaves the interface as it is, and with it all that
is generated (`Api.ofDocument_mapSchemas`).
-/

namespace OpenApiZod

/-! ### Rewriting schemas -/

/-- The part, if it is given, with `f` applied to it. -/
def OrReference.map {α β : Type} (f : α → β) : OrReference α → OrReference β
  | .reference target => .reference target
  | .inline value => .inline (f value)

section

variable (f : Schema → Schema)

/-- A body with its schemas rewritten. -/
def Content.mapSchemas (content : Content) : Content :=
  content.mapWithKey fun _ media => ⟨media.schema.map f⟩

/-- A request body with its schemas rewritten. -/
def RequestBody.mapSchemas (body : RequestBody) : RequestBody :=
  ⟨Content.mapSchemas f body.content⟩

/-- A response with its schemas rewritten. -/
def Response.mapSchemas (r : Response) : Response :=
  { r with content := Content.mapSchemas f r.content }

/-- An operation with its schemas rewritten. -/
def Operation.mapSchemas (o : Operation) : Operation :=
  { o with
    requestBody := o.requestBody.map (·.map (RequestBody.mapSchemas f))
    responses := o.responses.mapWithKey fun _ r => r.map (Response.mapSchemas f) }

/-- A path with the schemas of its operations rewritten. -/
def PathItem.mapSchemas (item : PathItem) : PathItem :=
  { item with operations := item.operations.map fun (method, o) => (method, o.mapSchemas f) }

/-- Components with their schemas rewritten. -/
def Components.mapSchemas (components : Components) : Components where
  schemas := components.schemas.mapWithKey fun _ => f
  responses := components.responses.mapWithKey fun _ r => r.map (Response.mapSchemas f)
  requestBodies := components.requestBodies.mapWithKey fun _ b => b.map (RequestBody.mapSchemas f)

/-- A document with all its schemas rewritten. -/
def Document.mapSchemas (d : Document) : Document :=
  { d with
    paths := d.paths.map (·.mapWithKey fun _ => PathItem.mapSchemas f)
    components := d.components.map (Components.mapSchemas f) }

end

/-! ### Tables -/

namespace Table

variable {α β γ : Type}

/-- Values may be changed twice in one turn. -/
theorem mapWithKey_mapWithKey (f : String → α → β) (g : String → β → γ) (t : Table α) :
    (t.mapWithKey f).mapWithKey g = t.mapWithKey fun key value => g key (f key value) := by
  simp only [mapWithKey, List.map_map, Function.comp_def]

/-- The changed values stand in the order of the others. -/
theorem values_mapWithKey (f : α → β) (t : Table α) :
    (t.mapWithKey fun _ => f).values = t.values.map f := by
  simp only [values, mapWithKey, List.map_map, Function.comp_def]

end Table

/-! ### Interfaces -/

namespace Api

/-- What is found among rewritten parts is what is found among the parts, rewritten. -/
theorem resolve_map {α β : Type} (f : α → β) (table : String) (parts : Table (OrReference α))
    (part : OrReference α) :
    resolve table (parts.mapWithKey fun _ p => p.map f) (part.map f) =
      ⟨(resolve table parts part).value.map f, (resolve table parts part).warnings⟩ := by
  cases part with
  | inline value => rfl
  | reference target =>
      simp only [OrReference.map, resolve]
      cases Reference.nameIn? table target with
      | none => rfl
      | some name =>
          simp only [Table.get?_mapWithKey]
          rcases parts.get? name with _ | _ | _ <;> rfl

section Rewriting

variable {f : Schema → Schema}
  (hcomponent : ∀ name s, Component.ofSchema name (f s) = Component.ofSchema name s)

include hcomponent

/-- A change that keeps components keeps shapes. -/
theorem ofSchema_of_component_eq (s : Schema) : Shape.ofSchema (f s) = Shape.ofSchema s :=
  congrArg Component.shape (hcomponent "" s)

/-- It keeps the shape of a body. -/
theorem bodyShape_mapSchemas (content : Content) :
    bodyShape (Content.mapSchemas f content) = bodyShape content := by
  have hmedia : ∀ media : MediaType, (media.schema.map f).map Shape.ofSchema =
      media.schema.map Shape.ofSchema := fun media => by
    rw [Option.map_map]
    exact congrArg (media.schema.map ·) (funext (ofSchema_of_component_eq hcomponent))
  have hchosen : ((Content.mapSchemas f content).get? "application/json").or
      (Content.mapSchemas f content).values.head? =
        ((content.get? "application/json").or content.values.head?).map
          fun media => ⟨media.schema.map f⟩ := by
    rw [Content.mapSchemas, Table.get?_mapWithKey, Table.values_mapWithKey, List.head?_map,
      Option.map_or]
  rw [bodyShape, bodyShape, hchosen]
  cases (content.get? "application/json").or content.values.head? with
  | none => rfl
  | some media => exact hmedia media

/-- So it does with a request body, in its place or by reference. -/
theorem requestShape_mapSchemas (components : Option Components)
    (body : Option (OrReference RequestBody)) :
    requestShape (components.map (Components.mapSchemas f))
        (body.map (·.map (RequestBody.mapSchemas f))) = requestShape components body := by
  cases body with
  | none => rfl
  | some body =>
      have htable : ((components.map (Components.mapSchemas f)).map (·.requestBodies)).getD .empty =
          Table.mapWithKey (fun _ b => b.map (RequestBody.mapSchemas f))
            ((components.map (·.requestBodies)).getD .empty) := by
        cases components <;> rfl
      simp only [Option.map_some, requestShape, htable, resolve_map, Option.bind_map,
        Function.comp_def, RequestBody.mapSchemas, bodyShape_mapSchemas hcomponent]

/-- And with a response. -/
theorem responseRecord_mapSchemas (components : Option Components)
    (response : OrReference Response) :
    responseRecord (components.map (Components.mapSchemas f))
        (response.map (Response.mapSchemas f)) = responseRecord components response := by
  have htable : ((components.map (Components.mapSchemas f)).map (·.responses)).getD .empty =
      Table.mapWithKey (fun _ r => r.map (Response.mapSchemas f))
        ((components.map (·.responses)).getD .empty) := by
    cases components <;> rfl
  simp only [responseRecord, htable, resolve_map]
  cases (resolve "responses" ((components.map (·.responses)).getD .empty) response).value with
  | none => rfl
  | some r => simp only [Option.map_some, Response.mapSchemas, bodyShape_mapSchemas hcomponent]

/-- So the record of a document's entry stays the same, with its warnings. -/
theorem entryRecord_mapSchemas (naming : Naming) (components : Option Components) (path : String)
    (item : PathItem) (method : Method) (operation : Operation) :
    entryRecord naming (components.map (Components.mapSchemas f)) path (item.mapSchemas f) method
        (operation.mapSchemas f) = entryRecord naming components path item method operation := by
  simp only [entryRecord, Operation.mapSchemas, requestShape_mapSchemas hcomponent,
    Table.mapWithKey_mapWithKey, responseRecord_mapSchemas hcomponent]
  rfl

/-- And with each one all records do. -/
theorem entryRecords_mapSchemas (naming : Naming) (d : Document) :
    entryRecords naming (d.mapSchemas f) = entryRecords naming d := by
  have hpaths : ((d.mapSchemas f).paths.map (·.entries)).getD [] =
      ((d.paths.map (·.entries)).getD []).map fun entry => (entry.1, entry.2.mapSchemas f) := by
    rw [Document.mapSchemas]
    cases d.paths <;> rfl
  rw [entryRecords, entryRecords, hpaths, List.flatMap_map]
  refine congrArg (List.flatMap · _) (funext fun entry => ?_)
  simp only [PathItem.mapSchemas, List.map_map]
  refine congrArg (List.map · _) (funext fun operation => ?_)
  exact entryRecord_mapSchemas hcomponent naming d.components entry.1 entry.2 operation.1
    operation.2

/-- The components of the document stay the same, too. -/
theorem componentsOf_mapSchemas (d : Document) :
    componentsOf (d.mapSchemas f) = componentsOf d := by
  rw [componentsOf, componentsOf, Document.mapSchemas]
  cases d.components with
  | none => rfl
  | some components =>
      simp only [Option.map_some, Components.mapSchemas, Table.mapWithKey_mapWithKey, hcomponent]

/-- An interface depends on the components that schemas give, and not on how they are written. -/
theorem ofDocument_mapSchemas (naming : Naming) (d : Document) :
    ofDocument naming (d.mapSchemas f) = ofDocument naming d := by
  rw [ofDocument, ofDocument, entryRecords_mapSchemas hcomponent naming d,
    componentsOf_mapSchemas hcomponent d]
  simp only [Document.mapSchemas, Option.isNone_map]

end Rewriting

end Api

end OpenApiZod

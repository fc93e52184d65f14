import OpenApiZod.Component
import OpenApiZod.Document
import OpenApiZod.Route
import OpenApiZod.Warning

/-!
# Interfaces

An `Api` is a document made ready for generation: components with their shapes, and one record
for each operation name with the shapes of its bodies. `Api.ofDocument` builds it. Entries of
the document that share an operation name are merged into one record.
-/

namespace OpenApiZod

/-- Where operation names come from. -/
inductive NamingStrategy
  | operationId
  | route
deriving DecidableEq, Repr

/-- How operations are named: the strategy, and other names for some of the names it gives. -/
structure Naming where
  strategy : NamingStrategy
  aliases : Table String

/-- The naming that follows the document. -/
def Naming.default : Naming := ⟨.operationId, .empty⟩

/-- A response: its description and the shape of its body. -/
structure ResponseRecord where
  description : String
  body : Option Shape

/-- All that is known of the operations of one name. -/
structure OperationRecord where
  operationId : String
  summary : Option String
  method : Method
  path : String
  requestBody : Option Shape
  responses : Table ResponseRecord

/-- A document made ready for generation. -/
structure Api where
  info : Info
  components : ComponentTable
  operations : Table OperationRecord

/-- Why a document cannot be made ready. -/
inductive ApiError
  /-- The document has neither paths nor components. -/
  | missingTables
deriving DecidableEq, Repr

/-- The text of the error. -/
def ApiError.message : ApiError → String
  | .missingTables => "parse error: missing required field: paths or components"

/-- A result with the warnings found on the way to it. -/
structure Checked (α : Type) where
  value : α
  warnings : List Warning

namespace Api

/-! ### Bodies -/

/-- The shape of a body: that of its JSON form, or of the first form there is. -/
def bodyShape (content : Content) : Option Shape := do
  let media ← (content.get? "application/json").or content.values.head?
  media.schema.map .ofSchema

/-- The part that is given or referred to; `table` is the name of the components' table that
references point into, and `parts` that table. -/
def resolve {α : Type} (table : String) (parts : Table (OrReference α)) :
    OrReference α → Checked (Option α)
  | .inline value => ⟨some value, []⟩
  | .reference target =>
    match Reference.nameIn? table target with
    | none => ⟨none, [.invalidReference target]⟩
    | some name =>
      match parts.get? name with
      | some (.inline value) => ⟨some value, []⟩
      | _ => ⟨none, [.unresolved target]⟩

/-- The shape of an operation's request body, if it has one. -/
def requestShape (components : Option Components) :
    Option (OrReference RequestBody) → Checked (Option Shape)
  | none => ⟨none, []⟩
  | some body =>
    let found := resolve "requestBodies" ((components.map (·.requestBodies)).getD .empty) body
    ⟨found.value.bind fun b => bodyShape b.content, found.warnings⟩

/-- The record of a response. One that cannot be found has neither description nor body. -/
def responseRecord (components : Option Components) (response : OrReference Response) :
    Checked ResponseRecord :=
  let found := resolve "responses" ((components.map (·.responses)).getD .empty) response
  match found.value with
  | some r => ⟨⟨r.description, bodyShape r.content⟩, found.warnings⟩
  | none => ⟨⟨"", none⟩, found.warnings⟩

/-! ### Operations -/

/-- The name of an operation: its id or the name its route spells, or the alias of that name. -/
def operationName (naming : Naming) (path : String) (method : Method) (operation : Operation) :
    String :=
  let route := Naming.ofRoute method.token path
  let name := match naming.strategy with
    | .operationId => operation.operationId.getD route
    | .route => route
  (naming.aliases.get? name).getD name

/-- The record of a single entry of a document. -/
def entryRecord (naming : Naming) (components : Option Components) (path : String)
    (item : PathItem) (method : Method) (operation : Operation) : Checked OperationRecord :=
  let request := requestShape components operation.requestBody
  let responses := operation.responses.mapWithKey fun _ r => responseRecord components r
  ⟨{ operationId := operationName naming path method operation
     summary := operation.summary.or item.summary
     method
     path
     requestBody := request.value
     responses := responses.mapWithKey fun _ r => r.value },
   request.warnings ++ responses.values.flatMap (·.warnings)⟩

/-- Merges a later entry into the record of its name. A body replaces the body before it and a
response the one with its status; summary, method and path stay those of the first entry. -/
def OperationRecord.merge (first later : OperationRecord) : OperationRecord :=
  { first with
    requestBody := later.requestBody.or first.requestBody
    responses := first.responses.extend later.responses.entries }

/-- Adds the record of an entry to the records before it. -/
def addRecord (records : Table OperationRecord) (record : OperationRecord) :
    Table OperationRecord :=
  match records.get? record.operationId with
  | some first => records.insert record.operationId (OperationRecord.merge first record)
  | none => records.insert record.operationId record

/-- The records of a document's entries, in the order of paths and, within one, of methods. -/
def entryRecords (naming : Naming) (d : Document) : List (Checked OperationRecord) :=
  ((d.paths.map (·.entries)).getD []).flatMap fun (path, item) =>
    item.operations.map fun (method, operation) =>
      entryRecord naming d.components path item method operation

/-- The components of a document. -/
def componentsOf (d : Document) : ComponentTable :=
  match d.components with
  | some components => components.schemas.mapWithKey Component.ofSchema
  | none => .empty

/-- A document made ready for generation, with the warnings about its references. -/
def ofDocument (naming : Naming) (d : Document) : Except ApiError (Checked Api) :=
  if d.paths.isNone && d.components.isNone then
    .error .missingTables
  else
    let records := entryRecords naming d
    .ok ⟨{ info := d.info
           components := componentsOf d
           operations := records.foldl (fun t r => addRecord t r.value) .empty },
         records.flatMap (·.warnings)⟩

end Api

end OpenApiZod

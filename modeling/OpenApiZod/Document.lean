import OpenApiZod.Schema.Reading

/-!
# API documents

The parts of an OpenAPI document that a compilation uses, and how they are read. What a
document leaves out has a default; a table of paths or of components that is missing is told
apart from an empty one.
-/

namespace OpenApiZod

/-- The methods of a path, in the order in which its operations are visited. -/
inductive Method
  | get
  | post
  | put
  | delete
  | patch
  | options
  | head
  | trace
deriving DecidableEq, Repr, Inhabited

namespace Method

/-- All methods, in order. -/
def all : List Method := [.get, .post, .put, .delete, .patch, .options, .head, .trace]

/-- The field of a path that holds the method's operation. -/
def field : Method → String
  | .get => "get"
  | .post => "post"
  | .put => "put"
  | .delete => "delete"
  | .patch => "patch"
  | .options => "options"
  | .head => "head"
  | .trace => "trace"

/-- The method in capitals. -/
def token : Method → String
  | .get => "GET"
  | .post => "POST"
  | .put => "PUT"
  | .delete => "DELETE"
  | .patch => "PATCH"
  | .options => "OPTIONS"
  | .head => "HEAD"
  | .trace => "TRACE"

end Method

/-- A reference to a named part, or the part itself. -/
inductive OrReference (α : Type)
  | reference (target : String)
  | inline (value : α)

/-- One representation of a body. -/
structure MediaType where
  schema : Option Schema

/-- A body, by media type. -/
abbrev Content := Table MediaType

/-- What an operation takes. -/
structure RequestBody where
  content : Content

/-- What an operation answers. -/
structure Response where
  description : String
  content : Content

/-- One method of a path. -/
structure Operation where
  operationId : Option String
  summary : Option String
  requestBody : Option (OrReference RequestBody)
  responses : Table (OrReference Response)

/-- One path: its operations in the order of `Method.all`. -/
structure PathItem where
  summary : Option String
  operations : List (Method × Operation)

/-- The named parts that references point to. -/
structure Components where
  schemas : Table Schema
  responses : Table (OrReference Response)
  requestBodies : Table (OrReference RequestBody)

/-- The title and the version of the described interface. -/
structure Info where
  title : String
  version : String
deriving DecidableEq, Repr

/-- A document. -/
structure Document where
  openapi : String
  info : Info
  paths : Option (Table PathItem)
  components : Option Components

/-! ### Inside typed values -/

/-- A media type; written as a list it has to hold its one value. -/
def MediaType.ofDatum? (d : Datum) : Option MediaType := do
  let fields ← d.fields? ["schema"]
  match d, fields with
  | .list _, [] => none
  | _, _ => return ⟨← Fields.readOptional? fields "schema" Schema.ofDatum?⟩

/-- Media types by name. -/
def Content.ofDatum? (d : Datum) : Option Content :=
  (Source.readEntries? MediaType.ofDatum? d).map .ofList

/-- A reference, or else what `read` makes of the value. -/
def OrReference.ofDatum? {α : Type} (read : Datum → Option α) (d : Datum) :
    Option (OrReference α) :=
  match d.referenceTarget? with
  | some target => some (.reference target)
  | none => (read d).map .inline

/-- A request body. -/
def RequestBody.ofDatum? (d : Datum) : Option RequestBody := do
  let fields ← d.fields? ["content"]
  return ⟨← Fields.read? fields "content" .empty Content.ofDatum?⟩

/-- A response. -/
def Response.ofDatum? (d : Datum) : Option Response := do
  let fields ← d.fields? ["description", "content"]
  return {
    description := ← Fields.read? fields "description" "" Datum.text?
    content := ← Fields.read? fields "content" .empty Content.ofDatum? }

/-! ### Outside typed values -/

section

variable {ν : Type} [Source ν]

/-- A map whose values are typed. -/
def readTyped? {α : Type} (read : Datum → Option α) (part : ν) : Option (Table α) :=
  (Source.readEntries? (fun value => (Source.datum? value).bind read) part).map .ofList

/-- An operation. -/
def Operation.read? (part : ν) : Option Operation := do
  let fields ← Source.fields? ["operationId", "summary", "requestBody", "responses"] part
  return {
    operationId := ← Fields.readOptional? fields "operationId" Source.text?
    summary := ← Fields.readOptional? fields "summary" Source.text?
    requestBody := ← Fields.readOptional? fields "requestBody" fun body =>
      (Source.datum? body).bind (OrReference.ofDatum? RequestBody.ofDatum?)
    responses := ← Fields.read? fields "responses" .empty
      (readTyped? (OrReference.ofDatum? Response.ofDatum?)) }

/-- A path. -/
def PathItem.read? (part : ν) : Option PathItem := do
  let fields ← Source.fields? ("summary" :: Method.all.map Method.field) part
  let summary ← Fields.readOptional? fields "summary" Source.text?
  let operations ← Method.all.mapM fun method => do
    let operation ← Fields.readOptional? fields method.field Operation.read?
    return operation.map (method, ·)
  return ⟨summary, operations.filterMap id⟩

/-- The tables of components. -/
def Components.read? (part : ν) : Option Components := do
  let fields ← Source.fields? ["schemas", "responses", "requestBodies"] part
  return {
    schemas := ← Fields.read? fields "schemas" .empty (readTyped? Schema.ofDatum?)
    responses := ← Fields.read? fields "responses" .empty
      (readTyped? (OrReference.ofDatum? Response.ofDatum?))
    requestBodies := ← Fields.read? fields "requestBodies" .empty
      (readTyped? (OrReference.ofDatum? RequestBody.ofDatum?)) }

/-- The title and the version. -/
def Info.read? (part : ν) : Option Info := do
  let fields ← Source.fields? ["title", "version"] part
  return {
    title := ← Fields.read? fields "title" "" Source.text?
    version := ← Fields.read? fields "version" "" Source.text? }

/-- A whole document. -/
def Document.read? (part : ν) : Option Document := do
  let fields ← Source.fields? ["openapi", "info", "paths", "components"] part
  return {
    openapi := ← Fields.read? fields "openapi" "" Source.text?
    info := ← Fields.read? fields "info" ⟨"", ""⟩ Info.read?
    paths := ← Fields.readOptional? fields "paths" fun paths =>
      (Source.readEntries? PathItem.read? paths).map .ofList
    components := ← Fields.readOptional? fields "components" Components.read? }

end

end OpenApiZod

import OpenApiZod.Schema
import OpenApiZod.Source
import OpenApiZod.Table

/-!
# Schemas from typed values

What a typed value is when a schema is wanted. A record with exactly one text under `$ref` is a
reference, whatever else it holds; any other record is read keyword by keyword, and so is a list
that gives the keywords' values in declared order.

The readings of a value's parts are computed before the value's own, so that every value is read
once: `Reading` keeps for a value what it is as a schema, as a list of schemas and as a table of
schemas.
-/

namespace OpenApiZod

namespace Datum

/-- The name that a key of an object stands for: a text for itself, and a number for the field at
that place. A number that counts no field stands for no name. -/
def fieldName? (known : List String) : Datum → Option (Option String)
  | .text s => some (some s)
  | .int (.ofNat n) => some known[n]?
  | _ => none

/-- The known fields of an object, given the entries of a record. -/
def fieldsOfEntries? {ν : Type} (known : List String) (entries : List (Datum × ν)) :
    Option (Fields ν) := do
  let named ← entries.mapM fun (key, value) => (fieldName? known key).map (·, value)
  Fields.ofEntries? known (named.filterMap fun (name, value) => name.map (·, value))

/-- The known fields of an object. -/
def fields? (known : List String) : Datum → Option (Fields Datum)
  | .record entries => fieldsOfEntries? known entries
  | .list items => Fields.ofList? known items
  | _ => none

/-- The target of a reference: the only value under `$ref`, if it is a text. -/
def referenceTarget? : Datum → Option String
  | .record entries =>
    match fieldsOfEntries? ["$ref"] entries with
    | some [(_, .text target)] => some target
    | _ => none
  | _ => none

instance : Source Datum where
  text? := text?
  present? d := some (if d.isNull then none else some d)
  entries? := entries?
  fields? := fields?
  datum? := some

end Datum

/-- A value with what it is as a schema, as a list of schemas and as a table of schemas. -/
structure Reading where
  datum : Datum
  schema : Option Schema
  schemas : Option (List Schema)
  table : Option (List (String × Schema))

namespace Reading

instance : Optional Reading where
  present? r := some (if r.datum.isNull then none else some r)

/-- The keywords of a schema in declared order. -/
def keywordNames : List String :=
  ["type", "format", "description", "nullable", "properties", "required",
   "additionalProperties", "items", "allOf", "oneOf", "anyOf", "enum", "const", "minimum",
   "maximum", "exclusiveMinimum", "exclusiveMaximum", "minLength", "maxLength", "pattern",
   "minItems", "maxItems"]

/-- A type's name: a text, or a record whose one key names the type and whose value is `null`. -/
def typeName? : Datum → Option TypeName
  | .text token => some (.ofToken token)
  | .record [(.text token, .null)] => some (.ofToken token)
  | .record [(.int (.ofNat n), .null)] => some (TypeName.declared[n]?.getD .other)
  | _ => none

/-- The value of `type`: a name or a list of names. -/
def typeSet? (d : Datum) : Option TypeSet :=
  match d with
  | .list items => (items.mapM typeName?).map .several
  | _ => (typeName? d).map .one

/-- The value of `additionalProperties`. -/
def additional? (r : Reading) : Option (Additional Schema) :=
  match r.datum with
  | .bool b => some (.flag b)
  | _ => r.schema.map .schema

/-- The value of `exclusiveMinimum` or `exclusiveMaximum`. -/
def exclusive? (d : Datum) : Option ExclusiveBound :=
  match d with
  | .bool b => some (.flag b)
  | _ => d.number?.map .value

/-- A list of texts. -/
def texts? (d : Datum) : Option (List String) := do
  let items ← d.items?
  items.mapM Datum.text?

/-- A list of JSON values. -/
def jsons? (d : Datum) : Option (List Json) := do
  let items ← d.items?
  items.mapM Datum.json?

/-- The keywords that the fields of an object give. -/
def keywords? (fields : Fields Reading) : Option (Keywords Schema) := do
  let optional {α : Type} (name : String) (read : Datum → Option α) :=
    Fields.readOptional? fields name fun r : Reading => read r.datum
  let type ← optional "type" typeSet?
  let format ← optional "format" Datum.text?
  let description ← optional "description" Datum.text?
  let nullable ← optional "nullable" Datum.bool?
  let properties ← Fields.read? fields "properties" [] Reading.table
  let required ← Fields.read? fields "required" [] fun r => texts? r.datum
  let additional ← Fields.readOptional? fields "additionalProperties" additional?
  let items ← Fields.readOptional? fields "items" Reading.schema
  let allOf ← Fields.read? fields "allOf" [] Reading.schemas
  let oneOf ← Fields.read? fields "oneOf" [] Reading.schemas
  let anyOf ← Fields.read? fields "anyOf" [] Reading.schemas
  let enum ← Fields.read? fields "enum" [] fun r => jsons? r.datum
  let const ← optional "const" Datum.json?
  let minimum ← optional "minimum" Datum.number?
  let maximum ← optional "maximum" Datum.number?
  let exclusiveMinimum ← optional "exclusiveMinimum" exclusive?
  let exclusiveMaximum ← optional "exclusiveMaximum" exclusive?
  let minLength ← optional "minLength" Datum.natural?
  let maxLength ← optional "maxLength" Datum.natural?
  let pattern ← optional "pattern" Datum.text?
  let minItems ← optional "minItems" Datum.natural?
  let maxItems ← optional "maxItems" Datum.natural?
  return { type, format, description, nullable, properties, required, additional, items, allOf,
           oneOf, anyOf, enum, const, minimum, maximum, exclusiveMinimum, exclusiveMaximum,
           minLength, maxLength, pattern, minItems, maxItems }

/-- A list of values with their readings, read as the keywords' values in declared order. -/
def ofItems (items : List Datum) (readings : List Reading) : Reading where
  datum := .list items
  schema := ((Fields.ofList? keywordNames readings).bind keywords?).map .inline
  schemas := readings.mapM Reading.schema
  table := none

/-- A record with the readings of its values. -/
def ofEntries (entries : List (Datum × Datum)) (readings : List (Datum × Reading)) : Reading where
  datum := .record entries
  schema :=
    match Datum.referenceTarget? (.record entries) with
    | some target => some (.reference target)
    | none => ((Datum.fieldsOfEntries? keywordNames readings).bind keywords?).map .inline
  schemas := none
  table := do
    let properties ← readings.mapM fun (key, r) => do return (← key.text?, ← r.schema)
    return (Table.ofList properties).entries

mutual

/-- What a value is as a schema, a list of schemas and a table of schemas. -/
def ofDatum : Datum → Reading
  | .list items => ofItems items (ofDatums items)
  | .record entries => ofEntries entries (ofRecord entries)
  | d => ⟨d, none, none, none⟩

/-- The readings of the elements of a list. -/
def ofDatums : List Datum → List Reading
  | [] => []
  | d :: rest => ofDatum d :: ofDatums rest

/-- The readings of the values of a record. -/
def ofRecord : List (Datum × Datum) → List (Datum × Reading)
  | [] => []
  | (key, d) :: rest => (key, ofDatum d) :: ofRecord rest

end

/-- The readings of several values are those of each. -/
theorem ofDatums_eq_map (items : List Datum) : ofDatums items = items.map ofDatum := by
  induction items with
  | nil => rfl
  | cons d rest ih => simp [ofDatums, ih]

/-- The readings of a record's values are those of each, under their keys. -/
theorem ofRecord_eq_map (entries : List (Datum × Datum)) :
    ofRecord entries = entries.map fun e => (e.1, ofDatum e.2) := by
  induction entries with
  | nil => rfl
  | cons e rest ih => simp [ofRecord, ih]

end Reading

/-- The schema that a typed value is. -/
def Schema.ofDatum? (d : Datum) : Option Schema := (Reading.ofDatum d).schema

end OpenApiZod

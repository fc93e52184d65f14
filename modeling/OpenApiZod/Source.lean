import OpenApiZod.Datum

/-!
# Reading documents

A document comes as JSON or as YAML, and its inner parts as typed values. `Source` says what
reading asks of each: whether a part is a text, is absent, is a map, is an object with known
fields, or has a typed value. The model of a document is read through this class alone.
-/

namespace OpenApiZod

/-- The fields found in an object, each known name at most once. -/
abbrev Fields (ν : Type) := List (String × ν)

/-- Parts of a document that may stand for their own absence. -/
class Optional (ν : Type) where
  /-- The part, or nothing where it stands for absence. -/
  present? : ν → Option (Option ν)

/-- What reading asks of a part of a document. -/
class Source (ν : Type) extends Optional ν where
  /-- The text, where a text is wanted. -/
  text? : ν → Option String
  /-- The entries of a map, in order and with repeated names. -/
  entries? : ν → Option (List (String × ν))
  /-- The known fields of an object. -/
  fields? : List String → ν → Option (Fields ν)
  /-- The typed value. -/
  datum? : ν → Option Datum

namespace Fields

variable {ν α : Type}

/-- The entries with a known name, if none of these names is repeated. -/
def ofEntries? (known : List String) (entries : List (String × ν)) : Option (Fields ν) :=
  let found := entries.filter (·.1 ∈ known)
  if (found.map Prod.fst).Nodup then some found else none

/-- The fields of an object that is written as the list of their values in declared order. Fields
at the end may be missing. -/
def ofList? (known : List String) (items : List ν) : Option (Fields ν) :=
  if items.length ≤ known.length then some (known.zip items) else none

/-- The value of a field that may not be `null`: read if it is there, else the default. -/
def read? (fields : Fields ν) (name : String) (default : α) (read : ν → Option α) : Option α :=
  match fields.lookup name with
  | some part => read part
  | none => some default

/-- The value of a field that may be absent. -/
def readOptional? [Optional ν] (fields : Fields ν) (name : String) (read : ν → Option α) :
    Option (Option α) :=
  match fields.lookup name with
  | none => some none
  | some part =>
    match Optional.present? part with
    | none => none
    | some none => some none
    | some (some part) => (read part).map some

end Fields

namespace Source

variable {ν α : Type} [Source ν]

/-- Reads every entry of a map. Of entries with one name the last counts. -/
def readEntries? (read : ν → Option α) (part : ν) : Option (List (String × α)) := do
  let entries ← entries? part
  entries.mapM fun (key, value) => (read value).map (key, ·)

end Source

end OpenApiZod

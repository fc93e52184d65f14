import OpenApiZod.Json.Value

/-!
# Typed values

What the text of a schema, a response or a request body holds once its scalars have their types.
The entries of a record are kept as written: in order, with repeated keys, and with keys of any
type.
-/

namespace OpenApiZod

/-- A typed value. -/
inductive Datum
  | null
  | bool (b : Bool)
  | int (n : Int)
  | float (x : Binary64)
  | text (s : String)
  | list (items : List Datum)
  | record (entries : List (Datum × Datum))
deriving Repr, Inhabited

namespace Datum

/-- The text that the value is, if it is one. -/
def text? : Datum → Option String
  | .text s => some s
  | _ => none

/-- Whether the value is `null`. -/
def isNull : Datum → Bool
  | .null => true
  | _ => false

/-- The elements of a list. -/
def items? : Datum → Option (List Datum)
  | .list items => some items
  | _ => none

/-- A natural number of 64 bits. -/
def natural? : Datum → Option Nat
  | .int (.ofNat n) => some n
  | _ => none

/-- A number as a double-precision one. -/
def number? : Datum → Option Binary64
  | .int n => some (.ofInt n)
  | .float x => some x
  | _ => none

/-- A truth value. -/
def bool? : Datum → Option Bool
  | .bool b => some b
  | _ => none

/-- The entries of a record all of whose keys are texts. -/
def entries? : Datum → Option (List (String × Datum))
  | .record entries => entries.mapM fun (key, value) => key.text?.map (·, value)
  | _ => none

/-! ### JSON values -/

/-- Puts a member of an object at its place among members sorted by name. A member of the same
name is replaced. -/
def insertMember (key : String) (value : Json) : List (String × Json) → List (String × Json)
  | [] => [(key, value)]
  | (k, v) :: rest =>
    if key = k then (key, value) :: rest
    else if key < k then (key, value) :: (k, v) :: rest
    else (k, v) :: insertMember key value rest

/-- The object with the given members; of members with one name the last counts. -/
def sortedObject (members : List (String × Json)) : Json :=
  .obj (members.foldl (fun sorted (key, value) => insertMember key value sorted) [])

mutual

/-- The JSON value of a typed one: a number that is not finite becomes `null`, and a record needs
texts for keys. -/
def json? : Datum → Option Json
  | .null => some .null
  | .bool b => some (.bool b)
  | .int n => some (.int n)
  | .float x => some (if x.isFinite then .float x else .null)
  | .text s => some (.str s)
  | .list items => (jsonItems? items).map .arr
  | .record entries => (jsonMembers? entries).map sortedObject

/-- The JSON values of the elements of a list. -/
def jsonItems? : List Datum → Option (List Json)
  | [] => some []
  | d :: rest =>
    match json? d, jsonItems? rest with
    | some v, some vs => some (v :: vs)
    | _, _ => none

/-- The JSON members of the entries of a record. -/
def jsonMembers? : List (Datum × Datum) → Option (List (String × Json))
  | [] => some []
  | (key, d) :: rest =>
    match key, json? d, jsonMembers? rest with
    | .text k, some v, some vs => some ((k, v) :: vs)
    | _, _, _ => none

end

end Datum

end OpenApiZod

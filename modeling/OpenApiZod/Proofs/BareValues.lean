import OpenApiZod.Document
import OpenApiZod.Proofs.RelatedFields

/-!
# Values without the siblings of their references

A record with one text under `$ref` is a reference where a schema, a response or a request body
stands, and what else it holds is not read. What a value inside such a record or elsewhere is read
as depends on where it stands: a record under `const` is no reference, whatever it holds, and a
property may be called `$ref`. `Position` names the places, and `Datum.bare` removes the siblings of
all references of a value, given where it stands.

The bare value is read like the value itself (`Schema.ofDatum?_bare`, `OrReference.ofDatum?_bare`).
-/

namespace OpenApiZod

/-! ### Positions -/

/-- What a part of a document is read as. -/
inductive Position
  | document
  | info
  | components
  | path
  | operation
  | schema
  | response
  | requestBody
  | media
  | listOf (p : Position)
  | mapOf (p : Position)
  /-- A value without references in it. -/
  | value

namespace Position

/-- The fields of an object in declared order. -/
def known : Position → List String
  | document => ["openapi", "info", "paths", "components"]
  | info => ["title", "version"]
  | components => ["schemas", "responses", "requestBodies"]
  | path => "summary" :: Method.all.map Method.field
  | operation => ["operationId", "summary", "requestBody", "responses"]
  | schema => Reading.keywordNames
  | response => ["description", "content"]
  | requestBody => ["content"]
  | media => ["schema"]
  | listOf _ | mapOf _ | value => []

/-- What the value of a field is read as, or that of an entry of a map. -/
def field (p : Position) (name : String) : Position :=
  match p with
  | mapOf p => p
  | document =>
    match name with
    | "info" => info
    | "paths" => mapOf path
    | "components" => components
    | _ => value
  | components =>
    match name with
    | "schemas" => mapOf schema
    | "responses" => mapOf response
    | "requestBodies" => mapOf requestBody
    | _ => value
  | path => if name = "summary" then value else operation
  | operation =>
    match name with
    | "requestBody" => requestBody
    | "responses" => mapOf response
    | _ => value
  | schema =>
    match name with
    | "properties" => mapOf schema
    | "additionalProperties" | "items" => schema
    | "allOf" | "oneOf" | "anyOf" => listOf schema
    | _ => value
  | response | requestBody => if name = "content" then mapOf media else value
  | media => if name = "schema" then schema else value
  | info | listOf _ | value => value

/-- What an element of a list is read as: one of elements that are all alike, or a field of an
object that is written as the list of its values. -/
def item (p : Position) (n : Nat) : Position :=
  match p with
  | listOf p => p
  | p => (p.known[n]?.map p.field).getD value

/-- What the value under a key is read as. -/
def entry (p : Position) (key : Datum) : Position :=
  match p with
  | mapOf p => p
  | p =>
    match Datum.fieldName? p.known key with
    | some (some name) => p.field name
    | _ => value

/-- Whether a reference may stand for the part. -/
def isReferable : Position → Bool
  | schema | response | requestBody => true
  | _ => false

/-- An element that stands for a field is read as that field. -/
theorem item_eq_field {p : Position} {n : Nat} {name : String} (h : p.known[n]? = some name) :
    p.item n = p.field name := by
  cases p with
  | listOf p => simp [known] at h
  | _ => simp [item, h]

/-- A key that stands for a field is read as that field. -/
theorem entry_eq_field {p : Position} {key : Datum} {name : String}
    (h : Datum.fieldName? p.known key = some (some name)) : p.entry key = p.field name := by
  cases p with
  | mapOf p => rfl
  | _ => simp [entry, h]

/-- Below a value there are values only. -/
@[simp] theorem item_value (n : Nat) : value.item n = value := rfl

/-- So it is below the keys of a record. -/
@[simp] theorem entry_value (key : Datum) : value.entry key = value := by
  simp only [entry, field]
  split <;> rfl

end Position

namespace Datum

/-! ### Bare values -/

/-- The target of a value that is a reference where it stands. -/
def target? (p : Position) (d : Datum) : Option String :=
  if p.isReferable then d.referenceTarget? else none

/-- A reference and nothing else. -/
def referenceTo (target : String) : Datum := .record [(.text "$ref", .text target)]

mutual

/-- The value without the siblings of its references. -/
def bare (p : Position) : Datum → Datum
  | .list items => .list (bareItems p.item items)
  | .record entries =>
    match target? p (.record entries) with
    | some target => referenceTo target
    | none => .record (bareEntries p entries)
  | d => d

/-- The elements without the siblings of their references. -/
def bareItems (read : Nat → Position) : List Datum → List Datum
  | [] => []
  | d :: rest => bare (read 0) d :: bareItems (fun n => read (n + 1)) rest

/-- The entries without the siblings of references in their values. -/
def bareEntries (p : Position) : List (Datum × Datum) → List (Datum × Datum)
  | [] => []
  | (key, d) :: rest => (key, bare (p.entry key) d) :: bareEntries p rest

end

/-- Each element is made bare at its own place. -/
theorem bareItems_eq_mapIdx (read : Nat → Position) (items : List Datum) :
    bareItems read items = items.mapIdx fun n d => bare (read n) d := by
  induction items generalizing read with
  | nil => rfl
  | cons d rest ih => rw [bareItems, List.mapIdx_cons, ih]

/-- Each entry is made bare under its own key. -/
theorem bareEntries_eq_map (p : Position) (entries : List (Datum × Datum)) :
    bareEntries p entries = entries.map fun e => (e.1, bare (p.entry e.1) e.2) := by
  induction entries with
  | nil => rfl
  | cons e rest ih => rw [bareEntries, List.map_cons, ih]

/-- Elements that are all read alike are made bare alike. -/
theorem bareItems_listOf (p : Position) (items : List Datum) :
    bareItems (Position.listOf p).item items = items.map (bare p) := by
  rw [bareItems_eq_mapIdx]
  exact List.ext_getElem (by simp) fun n _ _ => by simp [Position.item]

/-- So are the values of a map. -/
theorem bareEntries_mapOf (p : Position) (entries : List (Datum × Datum)) :
    bareEntries (.mapOf p) entries = entries.map fun e => (e.1, bare p e.2) :=
  bareEntries_eq_map _ entries

/-- The values in a value: the elements of a list, or those of a record. -/
def parts : Datum → List Datum
  | .list items => items
  | .record entries => entries.map Prod.snd
  | _ => []

/-- The values in a value are smaller, so induction on them ends. -/
theorem sizeOf_lt_of_mem_parts {d part : Datum} (h : part ∈ d.parts) :
    sizeOf part < sizeOf d := by
  cases d with
  | list items =>
      have hsize : sizeOf part < sizeOf items := List.sizeOf_lt_of_mem h
      rw [Datum.list.sizeOf_spec]
      omega
  | record entries =>
      obtain ⟨e, he, rfl⟩ := List.mem_map.mp h
      have hsize := List.sizeOf_lt_of_mem he
      have hpair : sizeOf e = 1 + sizeOf e.1 + sizeOf e.2 := by cases e; simp
      rw [Datum.record.sizeOf_spec]
      omega
  | _ => exact absurd h List.not_mem_nil

/-- What holds of a value if it holds of the values in it holds of all values. -/
@[elab_as_elim]
theorem induction {P : Datum → Prop} (h : ∀ d, (∀ part ∈ d.parts, P part) → P d) (d : Datum) :
    P d :=
  h d fun part _ => induction h part
termination_by sizeOf d
decreasing_by exact sizeOf_lt_of_mem_parts ‹_›

/-- Where no references are, nothing is removed. -/
@[simp] theorem bare_value (d : Datum) : bare .value d = d := by
  induction d using induction with
  | h d ih =>
      cases d with
      | list items =>
          rw [bare, bareItems_eq_mapIdx]
          refine congrArg _ (List.ext_getElem (by simp) fun n _ hn => ?_)
          simpa using ih _ (List.getElem_mem hn)
      | record entries =>
          have hplain : target? .value (.record entries) = none := rfl
          rw [bare, hplain, bareEntries_eq_map]
          have hall : ∀ e ∈ entries, (e.1, bare (Position.value.entry e.1) e.2) = e := by
            intro e he
            rw [Position.entry_value, ih e.2 (List.mem_map_of_mem he)]
          rw [List.map_congr_left hall, List.map_id']
      | _ => rfl

section

variable (p : Position) (d : Datum)

/-- A bare value is absent exactly if the value is. -/
@[simp] theorem isNull_bare : (bare p d).isNull = d.isNull := by
  cases d with
  | record entries => rw [bare]; split <;> rfl
  | _ => rfl

/-- Truth values have no siblings. -/
@[simp] theorem bool?_bare : (bare p d).bool? = d.bool? := by
  cases d with
  | record entries => rw [bare]; split <;> rfl
  | _ => rfl

/-- Neither have texts. -/
@[simp] theorem text?_bare : (bare p d).text? = d.text? := by
  cases d with
  | record entries => rw [bare]; split <;> rfl
  | _ => rfl

end

/-! ### Parts of bare values -/

/-- Whether a record is a reference, and to what, depends on the texts in it alone. -/
theorem referenceTarget?_congr {entries entries' : List (Datum × Datum)}
    (h : List.Forall₂ (fun e e' => e.1 = e'.1 ∧ e.2.text? = e'.2.text?) entries entries') :
    referenceTarget? (.record entries) = referenceTarget? (.record entries') := by
  have hfields : Option.Rel (Fields.Alike fun _ part part' => part.text? = part'.text?)
      (fieldsOfEntries? ["$ref"] entries) (fieldsOfEntries? ["$ref"] entries') :=
    fieldsOfEntries?_rel (h.imp fun _ _ he => ⟨he.1, fun _ _ => he.2⟩)
  obtain ⟨fields, fields', hfound, hfound', hall⟩ | ⟨hfound, hfound'⟩ := eq_of_rel hfields
  · simp only [referenceTarget?, hfound, hfound']
    cases hall with
    | nil => rfl
    | @cons e e' _ _ he hrest =>
        cases hrest with
        | nil =>
            obtain ⟨_, part⟩ := e
            obtain ⟨_, part'⟩ := e'
            have htext : part.text? = part'.text? := he.2
            cases part <;> cases part' <;> simp_all [text?]
        | cons =>
            obtain ⟨_, part⟩ := e
            obtain ⟨_, part'⟩ := e'
            cases part <;> cases part' <;> rfl
  · simp only [referenceTarget?, hfound, hfound']

/-- Bare entries are related to the entries if each bare value is to its own. -/
theorem forall₂_bareEntries {R : Datum × Datum → Datum × Datum → Prop} {p : Position}
    {entries : List (Datum × Datum)}
    (h : ∀ e ∈ entries, R (e.1, bare (p.entry e.1) e.2) e) :
    List.Forall₂ R (bareEntries p entries) entries := by
  rw [bareEntries_eq_map, List.forall₂_map_left_iff, List.forall₂_same]
  exact h

variable {p : Position} {d : Datum}

/-- A reference without its siblings is nothing but the reference. -/
theorem bare_of_target? {target : String} (h : target? p d = some target) :
    bare p d = referenceTo target := by
  cases d with
  | record entries => rw [bare, h]
  | _ =>
      rw [target?, Option.ite_none_right_eq_some] at h
      exact nomatch h.2

/-- A record that is no reference keeps its keys. -/
theorem bare_record {entries : List (Datum × Datum)} (h : target? p (.record entries) = none) :
    bare p (.record entries) = .record (bareEntries p entries) := by
  rw [bare, h]

/-- A plain reference has its target. -/
theorem referenceTarget?_referenceTo (target : String) :
    referenceTarget? (referenceTo target) = some target := rfl

/-- A value is a reference exactly if it is one without its siblings. -/
@[simp] theorem target?_bare (p : Position) (d : Datum) : target? p (bare p d) = target? p d := by
  cases htarget : target? p d with
  | some target =>
      rw [bare_of_target? htarget, target?, referenceTarget?_referenceTo, if_pos]
      rw [target?, Option.ite_none_right_eq_some] at htarget
      exact htarget.1
  | none =>
      cases d with
      | record entries =>
          rw [bare_record htarget, ← htarget, target?, target?, referenceTarget?_congr]
          exact forall₂_bareEntries fun e _ => ⟨rfl, text?_bare _ _⟩
      | _ => exact htarget

/-- An object that is no reference has the same fields without siblings, with bare values. -/
theorem fields?_bare {P : Datum → Prop} (hparts : ∀ part ∈ d.parts, P part)
    (hplain : target? p d = none) :
    Option.Rel (Fields.Alike fun name part part' => part = bare (p.field name) part' ∧ P part')
      ((bare p d).fields? p.known) (d.fields? p.known) := by
  cases d with
  | record entries =>
      rw [bare_record hplain]
      refine fieldsOfEntries?_rel (forall₂_bareEntries fun e he => ⟨rfl, fun name hname => ?_⟩)
      exact ⟨congrArg (bare · e.2) (Position.entry_eq_field hname),
        hparts e.2 (List.mem_map_of_mem he)⟩
  | list items =>
      rw [bare, bareItems_eq_mapIdx]
      refine Fields.ofList?_rel (by simp) fun n name part part' hname hpart hpart' => ?_
      rw [List.getElem?_mapIdx, hpart', Option.map_some, Option.some.injEq] at hpart
      rw [← hpart, Position.item_eq_field hname]
      exact ⟨rfl, hparts part' (List.mem_of_getElem? hpart')⟩
  | _ => exact .none

/-- A map has the same keys without siblings, with bare values. -/
theorem entries?_bare (p : Position) (d : Datum) :
    Option.Rel (List.Forall₂ fun e e' => e.1 = e'.1 ∧ e.2 = bare p e'.2)
      (Source.entries? (bare (.mapOf p) d)) (Source.entries? d) := by
  cases d with
  | record entries =>
      rw [bare_record rfl, bareEntries_mapOf]
      have hall : List.Forall₂ (fun e e' : Datum × Datum => e.1 = e'.1 ∧ e.2 = bare p e'.2)
          (entries.map fun e => (e.1, bare p e.2)) entries := by
        rw [List.forall₂_map_left_iff, List.forall₂_same]
        exact fun _ _ => ⟨rfl, rfl⟩
      refine rel_mapM hall ?_
      rintro ⟨key, part⟩ ⟨_, part'⟩ ⟨rfl, hpart⟩
      cases key with
      | text name => exact .some ⟨rfl, hpart⟩
      | _ => exact .none
  | _ => exact .none

end Datum

/-! ### Schemas -/

/-- The keywords that a value gives where it is no reference. -/
def Keywords.ofDatum? (d : Datum) : Option (Keywords Schema) :=
  (d.fields? Reading.keywordNames).bind fun fields =>
    Reading.keywords? (fields.map fun e => (e.1, Reading.ofDatum e.2))

namespace Reading

/-- A reading remembers what was read. -/
@[simp] theorem datum_ofDatum (d : Datum) : (ofDatum d).datum = d := by
  cases d <;> rfl

end Reading

/-- Keywords are read from readings as from the values that these are of. -/
theorem Reading.bind_keywords?_eq {readings : Option (Fields Reading)}
    {fields : Option (Fields Datum)}
    (h : Option.Rel (Fields.Alike fun _ r part => r = ofDatum part) readings fields) :
    readings.bind keywords? =
      fields.bind fun fields => keywords? (fields.map fun e => (e.1, ofDatum e.2)) :=
  bind_eq_of_rel h fun _ _ hall => congrArg keywords? (hall.eq_map (f := fun _ => ofDatum))

/-- A schema is a reference or else what its keywords say. -/
theorem Schema.ofDatum?_eq (d : Datum) :
    Schema.ofDatum? d = match d.referenceTarget? with
      | some target => some (.reference target)
      | none => (Keywords.ofDatum? d).map .inline := by
  cases d with
  | list items =>
      have hfields : Option.Rel (Fields.Alike fun _ r part => r = Reading.ofDatum part)
          (Fields.ofList? Reading.keywordNames (Reading.ofDatums items))
          (Fields.ofList? Reading.keywordNames items) := by
        rw [Reading.ofDatums_eq_map]
        refine Fields.ofList?_rel (by simp) fun n _ r part _ hr hpart => ?_
        simpa [hpart] using hr.symm
      exact congrArg (Option.map Schema.inline) (Reading.bind_keywords?_eq hfields)
  | record entries =>
      have hfields : Option.Rel (Fields.Alike fun _ r part => r = Reading.ofDatum part)
          (Datum.fieldsOfEntries? Reading.keywordNames (Reading.ofRecord entries))
          (Datum.fieldsOfEntries? Reading.keywordNames entries) := by
        rw [Reading.ofRecord_eq_map]
        refine Datum.fieldsOfEntries?_rel ?_
        rw [List.forall₂_map_left_iff, List.forall₂_same]
        exact fun _ _ => ⟨rfl, fun _ _ => rfl⟩
      rw [Schema.ofDatum?, Reading.ofDatum, Reading.ofEntries]
      simp only [Reading.bind_keywords?_eq hfields]
      rfl
  | _ => rfl

/-- What a value is read as stays the same without the siblings of references: as a schema, as a
list and as a table of schemas. -/
structure Reading.Kept (d : Datum) : Prop where
  schema : Schema.ofDatum? (d.bare .schema) = Schema.ofDatum? d
  schemas : (ofDatum (d.bare (.listOf .schema))).schemas = (ofDatum d).schemas
  table : (ofDatum (d.bare (.mapOf .schema))).table = (ofDatum d).table

namespace Reading

/-- The schema of additional properties is read as before, or is a truth value as before. -/
theorem Kept.additional? {d : Datum} (h : Kept d) :
    additional? (ofDatum (d.bare .schema)) = additional? (ofDatum d) := by
  have hschema := h.schema
  cases d with
  | record entries =>
      have hflag : ∀ e : Datum, e.bool? = none →
          Reading.additional? (ofDatum e) = (Schema.ofDatum? e).map .schema := by
        intro e he
        cases e <;> first | rfl | exact nomatch he
      rw [hflag _ (Datum.bool?_bare _ _), hflag _ rfl, hschema]
  | list items => exact congrArg (Option.map Additional.schema) hschema
  | _ => rfl

/-- The readings of a keyword's value without the siblings of references and with them. -/
def Bared (name : String) (r r' : Reading) : Prop :=
  ∃ d, Kept d ∧ r = ofDatum (d.bare (Position.schema.field name)) ∧ r' = ofDatum d

/-- Readings before and after are present together. -/
theorem Bared.present {name : String} {r r' : Reading} (h : Bared name r r') :
    Option.Rel (Option.Rel (Bared name)) (Optional.present? r) (Optional.present? r') := by
  obtain ⟨d, hd, rfl, rfl⟩ := h
  simp only [Optional.present?, datum_ofDatum, Datum.isNull_bare]
  split
  · exact .some .none
  · exact .some (.some ⟨d, hd, rfl, rfl⟩)

/-- Where a field holds a value without references its reading has not changed at all. -/
theorem Bared.eq {name : String} (hname : Position.schema.field name = .value) {r r' : Reading}
    (h : Bared name r r') : r = r' := by
  obtain ⟨d, -, rfl, rfl⟩ := h
  rw [hname, Datum.bare_value]

/-- Keywords stay the same if what the values in them are read as does. -/
theorem keywords?_eq {fields fields' : Fields Reading} (h : Fields.Alike Bared fields fields') :
    keywords? fields = keywords? fields' := by
  have hread {α : Type} (name : String) (default : α) (read : Reading → Option α)
      (hname : Position.schema.field name = .value) :
      Fields.read? fields name default read = Fields.read? fields' name default read :=
    h.read?_eq _ _ fun _ _ hr => congrArg read (hr.eq hname)
  have hoptional {α : Type} (name : String) (read : Reading → Option α)
      (hname : Position.schema.field name = .value) :
      Fields.readOptional? fields name read = Fields.readOptional? fields' name read :=
    h.readOptional?_eq _ (fun _ _ => Bared.present) fun _ _ hr => congrArg read (hr.eq hname)
  have hschemas (name : String) (hname : Position.schema.field name = .listOf .schema) :
      Fields.read? fields name [] Reading.schemas =
        Fields.read? fields' name [] Reading.schemas := by
    refine h.read?_eq _ _ ?_
    rintro _ _ ⟨d, hd, rfl, rfl⟩
    rw [hname, hd.schemas]
  have htable : Fields.read? fields "properties" [] Reading.table =
      Fields.read? fields' "properties" [] Reading.table := by
    refine h.read?_eq _ _ ?_
    rintro _ _ ⟨d, hd, rfl, rfl⟩
    exact hd.table
  have hitems : Fields.readOptional? fields "items" Reading.schema =
      Fields.readOptional? fields' "items" Reading.schema := by
    refine h.readOptional?_eq _ (fun _ _ => Bared.present) ?_
    rintro _ _ ⟨d, hd, rfl, rfl⟩
    exact hd.schema
  have hadditional : Fields.readOptional? fields "additionalProperties" Reading.additional? =
      Fields.readOptional? fields' "additionalProperties" Reading.additional? := by
    refine h.readOptional?_eq _ (fun _ _ => Bared.present) ?_
    rintro _ _ ⟨d, hd, rfl, rfl⟩
    exact hd.additional?
  simp only [keywords?, htable, hitems, hadditional, hschemas, hread, hoptional, Position.field,
    String.reduceEq, imp_self]

/-- What is kept for the parts of a value is kept for the value: this is the step of the induction.
-/
theorem Kept.of_parts {d : Datum} (h : ∀ part ∈ d.parts, Kept part) : Kept d where
  schema := by
    have htarget := Datum.target?_bare .schema d
    rw [Schema.ofDatum?_eq, Schema.ofDatum?_eq]
    simp only [Datum.target?, Position.isReferable, if_true] at htarget
    rw [htarget]
    cases hplain : d.referenceTarget? with
    | some target => rfl
    | none =>
        have hfields := Datum.fields?_bare (p := .schema) h hplain
        refine congrArg (Option.map Schema.inline) (bind_eq_of_rel hfields
          fun fields fields' hall => keywords?_eq ?_)
        rw [Fields.Alike, List.forall₂_map_left_iff, List.forall₂_map_right_iff]
        exact hall.imp fun _ _ ⟨hname, hpart, hkept⟩ =>
          ⟨hname, _, hkept, congrArg ofDatum hpart, rfl⟩
  schemas := by
    cases d with
    | list items =>
        rw [Datum.bare, Datum.bareItems_listOf, ofDatum, ofDatum, ofItems, ofItems,
          ofDatums_eq_map, ofDatums_eq_map]
        refine mapM_eq_of_forall₂ (R := fun r r' => r.schema = r'.schema) ?_ fun _ _ hr => hr
        rw [List.map_map, List.forall₂_map_left_iff, List.forall₂_map_right_iff, List.forall₂_same]
        exact fun part hpart => (h part hpart).schema
    | record entries => rfl
    | _ => rfl
  table := by
    cases d with
    | record entries =>
        rw [Datum.bare_record rfl, Datum.bareEntries_mapOf, ofDatum, ofDatum, ofEntries, ofEntries,
          ofRecord_eq_map, ofRecord_eq_map]
        have hall : List.Forall₂ (fun e e' : Datum × Reading =>
            e.1 = e'.1 ∧ e.2.schema = e'.2.schema)
            ((entries.map fun e => (e.1, e.2.bare .schema)).map fun e => (e.1, ofDatum e.2))
            (entries.map fun e => (e.1, ofDatum e.2)) := by
          rw [List.map_map, List.forall₂_map_left_iff, List.forall₂_map_right_iff,
            List.forall₂_same]
          exact fun e he => ⟨rfl, (h e.2 (List.mem_map_of_mem he)).schema⟩
        refine congrArg (Option.bind · fun properties => some (Table.ofList properties).entries)
          (mapM_eq_of_forall₂ hall ?_)
        rintro ⟨key, r⟩ ⟨_, r'⟩ ⟨rfl, hschema⟩
        simp only at hschema
        simp only [hschema]
    | _ => rfl

/-- What a value is read as does not depend on the siblings of references in it. -/
theorem kept (d : Datum) : Kept d := by
  induction d using Datum.induction with
  | h d ih => exact .of_parts ih

end Reading

/-- A schema is read without the siblings of references as it is with them. -/
theorem Schema.ofDatum?_bare (d : Datum) : Schema.ofDatum? (d.bare .schema) = Schema.ofDatum? d :=
  (Reading.kept d).schema

/-- A record under `const` is no reference, and under `properties` it is `$ref` that has the schema
of a property. -/
example :
    let reference : Datum := .record [(.text "$ref", .text "a"), (.text "type", .null)]
    Datum.bare .schema (.record [(.text "const", reference),
        (.text "properties", .record [(.text "$ref", reference)])]) =
      .record [(.text "const", reference),
        (.text "properties", .record [(.text "$ref", .referenceTo "a")])] :=
  rfl

/-! ### Responses and request bodies -/

/-- Fields of an object without the siblings of references and with them. -/
def Fields.Bared (p : Position) (fields fields' : Fields Datum) : Prop :=
  Alike (fun name part part' => part = part'.bare (p.field name)) fields fields'

section

variable {p : Position} {d : Datum}

/-- A value that is no reference keeps its fields, with bare values. -/
theorem Datum.fields?_bared (hplain : d.target? p = none) :
    Option.Rel (Fields.Bared p) ((d.bare p).fields? p.known) (d.fields? p.known) := by
  have hfields := fields?_bare (P := fun _ => True) (fun _ _ => trivial) hplain
  exact rel_imp hfields fun _ _ hall => hall.imp fun _ _ he => ⟨he.1, he.2.1⟩

variable {α : Type} {fields fields' : Fields Datum} (h : Fields.Bared p fields fields')
include h

/-- A field is read as before if its reader does not see siblings. -/
theorem Fields.Bared.read?_eq {name : String} {default : α} {read : Datum → Option α}
    (hread : ∀ part, read (part.bare (p.field name)) = read part) :
    Fields.read? fields name default read = Fields.read? fields' name default read := by
  refine Fields.Alike.read?_eq h _ _ ?_
  rintro _ part rfl
  exact hread part

/-- So is a field that may be absent. -/
theorem Fields.Bared.readOptional?_eq {name : String} {read : Datum → Option α}
    (hread : ∀ part, read (part.bare (p.field name)) = read part) :
    Fields.readOptional? fields name read = Fields.readOptional? fields' name read := by
  refine Fields.Alike.readOptional?_eq h _ ?_ ?_
  · rintro _ part rfl
    simp only [Optional.present?, Datum.isNull_bare]
    split
    · exact .some .none
    · exact .some (.some rfl)
  · rintro _ part rfl
    exact hread part

end

/-- Reading a media type does not see the siblings in its schema. -/
theorem MediaType.ofDatum?_bare (d : Datum) :
    MediaType.ofDatum? (d.bare .media) = MediaType.ofDatum? d := by
  refine bind_eq_of_rel (Datum.fields?_bared (p := .media) rfl) fun fields fields' hall => ?_
  rw [hall.readOptional?_eq Schema.ofDatum?_bare]
  cases d with
  | list items => cases hall <;> rfl
  | record entries => rw [Datum.bare_record rfl]
  | _ => rfl

/-- Nor does reading the content of a body. -/
theorem Content.ofDatum?_bare (d : Datum) :
    Content.ofDatum? (d.bare (.mapOf .media)) = Content.ofDatum? d := by
  refine congrArg (Option.map Table.ofList) (Source.readEntries?_eq
    (P := fun part part' => part = part'.bare .media) (Datum.entries?_bare .media d) ?_)
  rintro _ part rfl
  exact MediaType.ofDatum?_bare part

/-- Nor does reading a response. -/
theorem Response.ofDatum?_bare {d : Datum} (hplain : d.target? .response = none) :
    Response.ofDatum? (d.bare .response) = Response.ofDatum? d := by
  refine bind_eq_of_rel (Datum.fields?_bared hplain) fun fields fields' hall => ?_
  rw [hall.read?_eq (Datum.text?_bare _), hall.read?_eq Content.ofDatum?_bare]

/-- Nor does reading a request body. -/
theorem RequestBody.ofDatum?_bare {d : Datum} (hplain : d.target? .requestBody = none) :
    RequestBody.ofDatum? (d.bare .requestBody) = RequestBody.ofDatum? d := by
  refine bind_eq_of_rel (Datum.fields?_bared hplain) fun fields fields' hall => ?_
  rw [hall.read?_eq Content.ofDatum?_bare]

/-- A part that a reference may stand for is read without the siblings of references as it is with
them, if that is so where it is no reference. -/
theorem OrReference.ofDatum?_bare {α : Type} {read : Datum → Option α} {p : Position}
    (hp : p.isReferable = true) (hread : ∀ {d}, d.target? p = none → read (d.bare p) = read d)
    (d : Datum) :
    OrReference.ofDatum? read (d.bare p) = OrReference.ofDatum? read d := by
  have htarget : ∀ e : Datum, e.referenceTarget? = e.target? p := fun e => by
    rw [Datum.target?, if_pos hp]
  rw [OrReference.ofDatum?, OrReference.ofDatum?, htarget, htarget, Datum.target?_bare]
  cases hplain : d.target? p with
  | some target => rfl
  | none => exact congrArg (Option.map OrReference.inline) (hread hplain)

end OpenApiZod

import Mathlib.Data.List.Nodup
import Mathlib.Tactic.MkIffOfInductiveProp
import OpenApiZod.Proofs.BareValues
import OpenApiZod.Proofs.Tables

/-!
# The fields of keywords

`Reading.Gives fields k` says of each keyword in `k` from which field it was read, and holds of all
keywords that are read (`Reading.keywords?_eq_some_iff`). To put an entry into a record adds one
field, if the record has none of that name (`Datum.fieldsOfEntries?_insert`).
-/

namespace OpenApiZod

/-! ### Keywords and their fields -/

namespace Reading

/-- The keywords that fields give, one by one. -/
@[mk_iff]
structure Gives (fields : Fields Reading) (k : Keywords Schema) : Prop where
  type : Fields.readOptional? fields "type" (fun r => typeSet? r.datum) = some k.type
  format : Fields.readOptional? fields "format" (fun r => r.datum.text?) = some k.format
  description :
    Fields.readOptional? fields "description" (fun r => r.datum.text?) = some k.description
  nullable : Fields.readOptional? fields "nullable" (fun r => r.datum.bool?) = some k.nullable
  properties : Fields.read? fields "properties" [] Reading.table = some k.properties
  required : Fields.read? fields "required" [] (fun r => texts? r.datum) = some k.required
  additional :
    Fields.readOptional? fields "additionalProperties" additional? = some k.additional
  items : Fields.readOptional? fields "items" Reading.schema = some k.items
  allOf : Fields.read? fields "allOf" [] Reading.schemas = some k.allOf
  oneOf : Fields.read? fields "oneOf" [] Reading.schemas = some k.oneOf
  anyOf : Fields.read? fields "anyOf" [] Reading.schemas = some k.anyOf
  enum : Fields.read? fields "enum" [] (fun r => jsons? r.datum) = some k.enum
  const : Fields.readOptional? fields "const" (fun r => r.datum.json?) = some k.const
  minimum : Fields.readOptional? fields "minimum" (fun r => r.datum.number?) = some k.minimum
  maximum : Fields.readOptional? fields "maximum" (fun r => r.datum.number?) = some k.maximum
  exclusiveMinimum : Fields.readOptional? fields "exclusiveMinimum"
    (fun r => exclusive? r.datum) = some k.exclusiveMinimum
  exclusiveMaximum : Fields.readOptional? fields "exclusiveMaximum"
    (fun r => exclusive? r.datum) = some k.exclusiveMaximum
  minLength :
    Fields.readOptional? fields "minLength" (fun r => r.datum.natural?) = some k.minLength
  maxLength :
    Fields.readOptional? fields "maxLength" (fun r => r.datum.natural?) = some k.maxLength
  pattern : Fields.readOptional? fields "pattern" (fun r => r.datum.text?) = some k.pattern
  minItems : Fields.readOptional? fields "minItems" (fun r => r.datum.natural?) = some k.minItems
  maxItems : Fields.readOptional? fields "maxItems" (fun r => r.datum.natural?) = some k.maxItems

/-- Keywords are read exactly if each field gives its own. -/
theorem keywords?_eq_some_iff {fields : Fields Reading} {k : Keywords Schema} :
    keywords? fields = some k ↔ Gives fields k := by
  constructor
  · intro h
    obtain ⟨_, type, h⟩ := Option.bind_eq_some_iff.mp h
    obtain ⟨_, format, h⟩ := Option.bind_eq_some_iff.mp h
    obtain ⟨_, description, h⟩ := Option.bind_eq_some_iff.mp h
    obtain ⟨_, nullable, h⟩ := Option.bind_eq_some_iff.mp h
    obtain ⟨_, properties, h⟩ := Option.bind_eq_some_iff.mp h
    obtain ⟨_, required, h⟩ := Option.bind_eq_some_iff.mp h
    obtain ⟨_, additional, h⟩ := Option.bind_eq_some_iff.mp h
    obtain ⟨_, items, h⟩ := Option.bind_eq_some_iff.mp h
    obtain ⟨_, allOf, h⟩ := Option.bind_eq_some_iff.mp h
    obtain ⟨_, oneOf, h⟩ := Option.bind_eq_some_iff.mp h
    obtain ⟨_, anyOf, h⟩ := Option.bind_eq_some_iff.mp h
    obtain ⟨_, enum, h⟩ := Option.bind_eq_some_iff.mp h
    obtain ⟨_, const, h⟩ := Option.bind_eq_some_iff.mp h
    obtain ⟨_, minimum, h⟩ := Option.bind_eq_some_iff.mp h
    obtain ⟨_, maximum, h⟩ := Option.bind_eq_some_iff.mp h
    obtain ⟨_, exclusiveMinimum, h⟩ := Option.bind_eq_some_iff.mp h
    obtain ⟨_, exclusiveMaximum, h⟩ := Option.bind_eq_some_iff.mp h
    obtain ⟨_, minLength, h⟩ := Option.bind_eq_some_iff.mp h
    obtain ⟨_, maxLength, h⟩ := Option.bind_eq_some_iff.mp h
    obtain ⟨_, pattern, h⟩ := Option.bind_eq_some_iff.mp h
    obtain ⟨_, minItems, h⟩ := Option.bind_eq_some_iff.mp h
    obtain ⟨_, maxItems, h⟩ := Option.bind_eq_some_iff.mp h
    obtain rfl := Option.some.inj h
    exact ⟨type, format, description, nullable, properties, required, additional, items, allOf,
      oneOf, anyOf, enum, const, minimum, maximum, exclusiveMinimum, exclusiveMaximum, minLength,
      maxLength, pattern, minItems, maxItems⟩
  · intro h
    rw [keywords?]
    dsimp only
    rw [h.type, h.format, h.description, h.nullable, h.properties, h.required,
      h.additional, h.items, h.allOf, h.oneOf, h.anyOf, h.enum, h.const, h.minimum, h.maximum,
      h.exclusiveMinimum, h.exclusiveMaximum, h.minLength, h.maxLength, h.pattern, h.minItems,
      h.maxItems]
    rfl

end Reading

/-! ### One field more -/

/-- Fields and the same fields with one more. -/
structure Fields.Adds {ν : Type} (name : String) (part : ν) (fields fields' : Fields ν) : Prop where
  absent : fields.lookup name = none
  added : fields'.lookup name = some part
  others : ∀ other, other ≠ name → fields'.lookup other = fields.lookup other

namespace Fields

variable {ν μ : Type} {name : String}

/-- A changed field is found where the field was. -/
theorem lookup_map (f : ν → μ) (fields : Fields ν) (name : String) :
    List.lookup name (fields.map fun e => (e.1, f e.2)) = (fields.lookup name).map f := by
  induction fields with
  | nil => rfl
  | cons e rest ih =>
      rw [List.map_cons, Table.lookup_entry, Table.lookup_entry, ih]
      split <;> rfl

/-- An entry that is added may be changed with the others. -/
theorem Adds.map {part : ν} {fields fields' : Fields ν} (h : Adds name part fields fields')
    (f : ν → μ) :
    Adds name (f part) (fields.map fun e => (e.1, f e.2)) (fields'.map fun e => (e.1, f e.2)) where
  absent := by rw [lookup_map, h.absent, Option.map_none]
  added := by rw [lookup_map, h.added, Option.map_some]
  others other hother := by rw [lookup_map, lookup_map, h.others other hother]

/-- To put an entry among the entries of an object adds its field, if the object has none of that
name. -/
theorem ofEntries?_insert (part : ν) {known : List String} {before after : List (String × ν)}
    (hknown : name ∈ known) (habsent : name ∉ (before ++ after).map Prod.fst) :
    Option.Rel (Adds name part) (ofEntries? known (before ++ after))
      (ofEntries? known (before ++ (name, part) :: after)) := by
  have hfound : ((name, part) :: after).filter (·.1 ∈ known) =
      (name, part) :: after.filter (·.1 ∈ known) :=
    List.filter_cons_of_pos (by simpa using hknown)
  have hnone : name ∉ ((before ++ after).filter (·.1 ∈ known)).map Prod.fst := fun hmem =>
    habsent (List.Sublist.subset (List.filter_sublist.map _) hmem)
  rw [ofEntries?, ofEntries?, List.filter_append, List.filter_append, hfound]
  rw [List.filter_append] at hnone
  generalize before.filter (·.1 ∈ known) = before, after.filter (·.1 ∈ known) = after at *
  have hnodup : ((before ++ (name, part) :: after).map Prod.fst).Nodup ↔
      ((before ++ after).map Prod.fst).Nodup := by
    rw [List.map_append, List.map_cons, List.nodup_middle, List.nodup_cons, ← List.map_append]
    exact and_iff_right hnone
  rw [List.map_append, List.mem_append, not_or] at hnone
  have hbefore := Table.lookup_eq_none_of_not_mem hnone.1
  simp only [hnodup]
  split
  · refine .some ⟨?_, ?_, fun other hother => ?_⟩
    · rw [List.lookup_append, hbefore, Option.none_or,
        Table.lookup_eq_none_of_not_mem hnone.2]
    · rw [List.lookup_append, hbefore, Option.none_or, Table.lookup_entry, if_pos rfl]
    · rw [List.lookup_append, List.lookup_append, Table.lookup_entry, if_neg hother]
  · exact .none

end Fields

namespace Datum

/-- Entries whose keys stand for other names do not have the name. -/
theorem not_mem_names {known : List String} {entries : List (Datum × Datum)} {name : String}
    {named : List (Option String × Datum)}
    (hnamed : entries.mapM (fun e => (fieldName? known e.1).map (·, e.2)) = some named)
    (h : ∀ e ∈ entries, fieldName? known e.1 ≠ some (some name)) :
    name ∉ (named.filterMap fun e => e.1.map (·, e.2)).map Prod.fst := by
  induction entries generalizing named with
  | nil =>
      obtain rfl := Option.some.inj hnamed
      exact List.not_mem_nil
  | cons e rest ih =>
      rw [List.forall_mem_cons] at h
      rw [List.mapM_cons] at hnamed
      obtain ⟨_, he, hnamed⟩ := Option.bind_eq_some_iff.mp hnamed
      obtain ⟨named', hrest, hnamed⟩ := Option.bind_eq_some_iff.mp hnamed
      obtain rfl := Option.some.inj hnamed
      obtain ⟨key, hkey, rfl⟩ := Option.map_eq_some_iff.mp he
      have hnot := ih hrest h.2
      cases key with
      | none => exact hnot
      | some other =>
          have hother : name ≠ other := fun heq => h.1 (heq ▸ hkey)
          exact fun hmem => (List.mem_cons.mp hmem).elim hother hnot

/-- To put an entry into a record adds its field, if no other entry has that name. -/
theorem fieldsOfEntries?_insert (part : Datum) {known : List String}
    {before after : List (Datum × Datum)} {name : String} (hknown : name ∈ known)
    (habsent : ∀ e ∈ before ++ after, fieldName? known e.1 ≠ some (some name)) :
    Option.Rel (Fields.Adds name part) (fieldsOfEntries? known (before ++ after))
      (fieldsOfEntries? known (before ++ (.text name, part) :: after)) := by
  have hown : (fieldName? known (text name)).map (·, part) = some (some name, part) := rfl
  rw [fieldsOfEntries?_eq, fieldsOfEntries?_eq, List.mapM_append, List.mapM_append,
    List.mapM_cons, hown]
  rw [List.forall_mem_append] at habsent
  cases hbefore : before.mapM (fun e => (fieldName? known e.1).map (·, e.2)) with
  | none => exact .none
  | some named =>
      cases hafter : after.mapM (fun e => (fieldName? known e.1).map (·, e.2)) with
      | none => exact .none
      | some named' =>
          have hnames : name ∉ ((named.filterMap fun e => e.1.map (·, e.2)) ++
              named'.filterMap fun e => e.1.map (·, e.2)).map Prod.fst := by
            rw [List.map_append, List.mem_append, not_or]
            exact ⟨not_mem_names hbefore habsent.1, not_mem_names hafter habsent.2⟩
          simpa [List.filterMap_append] using Fields.ofEntries?_insert part hknown hnames

end Datum

end OpenApiZod

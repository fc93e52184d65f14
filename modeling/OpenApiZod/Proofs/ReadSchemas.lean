import OpenApiZod.Proofs.InterfaceShapes
import OpenApiZod.Proofs.KeywordFields
import OpenApiZod.Proofs.MergedOperations
import OpenApiZod.Proofs.Spellings

/-!
# The schemas of documents that were read

Reading makes the schemas of a document from the typed values in it, level by level. What holds
everywhere in these typed values passes to the keywords that are read from them, and so holds
everywhere in the schemas (`Schema.everywhere_of_ofDatum?`).

`Inherited G P` says that `G` passes from a part of a document to all parts that are read in it, and
that `P` then holds everywhere in its typed value. What holds of the schema of any such value holds
of all schemas of a document that is read from a part with `G` (`Document.forall_schemas_of_read?`).
-/

namespace OpenApiZod

/-! ### Fields -/

/-- What is looked up stands in the list. -/
theorem mem_of_lookup {κ α : Type} [BEq κ] [LawfulBEq κ] {key : κ} {value : α}
    {entries : List (κ × α)} (h : entries.lookup key = some value) : (key, value) ∈ entries := by
  obtain ⟨before, after, rfl, -⟩ := List.lookup_eq_some_iff.mp h
  exact List.mem_append_right _ List.mem_cons_self

namespace Fields

variable {ν α : Type} {fields : Fields ν} {name : String} {read : ν → Option α}

/-- A value that was read is the default, or comes from a field. -/
theorem exists_of_read? {default value : α}
    (h : read? fields name default read = some value) :
    value = default ∨ ∃ e ∈ fields, read e.2 = some value := by
  unfold read? at h
  split at h
  · rename_i hpart
    exact Or.inr ⟨_, mem_of_lookup hpart, h⟩
  · exact Or.inl (Option.some.inj h).symm

/-- A value that may be absent and is there comes from a field that does not stand for its
absence. -/
theorem exists_mem_of_readOptional? [Optional ν] {value : α}
    (h : readOptional? fields name read = some (some value)) :
    ∃ e ∈ fields, ∃ part, Optional.present? e.2 = some (some part) ∧ read part = some value := by
  unfold readOptional? at h
  split at h
  · exact nomatch h
  · rename_i hfield
    split at h
    · exact nomatch h
    · exact nomatch h
    · rename_i part hpart
      obtain ⟨_, hread, heq⟩ := Option.map_eq_some_iff.mp h
      exact ⟨_, mem_of_lookup hfield, part, hpart, Option.some.inj heq ▸ hread⟩

/-- The fields that are read are among the entries. -/
theorem subset_of_ofEntries? {known : List String} {entries : List (String × ν)}
    (h : ofEntries? known entries = some fields) : fields ⊆ entries := by
  rw [ofEntries?] at h
  split at h
  · obtain rfl := Option.some.inj h
    exact fun _ he => List.mem_of_mem_filter he
  · cases h

end Fields

/-! ### Typed values -/

namespace Datum

/-- What holds of a typed value and of all values in it. -/
inductive Everywhere (P : Datum → Prop) : Datum → Prop
  | intro {d : Datum} (own : P d) (parts : ∀ part ∈ d.parts, Everywhere P part) : Everywhere P d

/-- A value that is there is the value itself. -/
theorem eq_of_present? {d d' : Datum} (h : Optional.present? d = some (some d')) : d = d' := by
  simp only [Optional.present?] at h
  split at h
  · exact nomatch h
  · exact Option.some.inj (Option.some.inj h)

variable {P : Datum → Prop} {d : Datum}

/-- What holds everywhere in a value holds of the value. -/
theorem Everywhere.own : d.Everywhere P → P d
  | .intro own _ => own

/-- It holds everywhere in its parts. -/
theorem Everywhere.part {part : Datum} (hpart : part ∈ d.parts) :
    d.Everywhere P → part.Everywhere P
  | .intro _ parts => parts part hpart

/-- The values of the fields of a value are its parts. -/
theorem mem_parts_of_fields? {known : List String} {fields : Fields Datum}
    (h : d.fields? known = some fields) : ∀ e ∈ fields, e.2 ∈ d.parts := by
  intro e he
  cases d with
  | list items =>
      simp only [fields?, Fields.ofList?] at h
      split at h
      · obtain rfl := Option.some.inj h
        exact (List.of_mem_zip he).2
      · cases h
  | record entries =>
      simp only [fields?, fieldsOfEntries?_eq] at h
      obtain ⟨named, hnamed, hfields⟩ := Option.bind_eq_some_iff.mp h
      obtain ⟨field, hfield, heq⟩ :=
        List.mem_filterMap.mp (Fields.subset_of_ofEntries? hfields he)
      obtain ⟨_, -, rfl⟩ := Option.map_eq_some_iff.mp heq
      obtain ⟨entry, hentry, hread⟩ := exists_mem_of_mapM hnamed hfield
      obtain ⟨_, -, rfl⟩ := Option.map_eq_some_iff.mp hread
      exact List.mem_map_of_mem hentry
  | _ => cases h

/-- The values of its entries are its parts, too. -/
theorem mem_parts_of_entries? {entries : List (String × Datum)} (h : d.entries? = some entries) :
    ∀ e ∈ entries, e.2 ∈ d.parts := by
  intro e he
  cases d with
  | record members =>
      obtain ⟨member, hmember, hread⟩ := exists_mem_of_mapM h he
      obtain ⟨_, -, rfl⟩ := Option.map_eq_some_iff.mp hread
      exact List.mem_map_of_mem hmember
  | _ => exact nomatch h

end Datum

/-! ### Schemas -/

/-- What holds at all levels of whatever a value is read as: a schema, a list or a table of
schemas. -/
structure Reading.Holds (Q : Keywords Schema → Prop) (r : Reading) : Prop where
  schema : ∀ s, r.schema = some s → s.Everywhere Q
  schemas : ∀ members, r.schemas = some members → ∀ s ∈ members, s.Everywhere Q
  table : ∀ properties, r.table = some properties → ∀ p ∈ properties, p.2.Everywhere Q

namespace Reading

/-- A reading that is there is the reading itself. -/
theorem eq_of_present? {r r' : Reading} (h : Optional.present? r = some (some r')) : r = r' := by
  simp only [Optional.present?] at h
  split at h
  · exact nomatch h
  · exact Option.some.inj (Option.some.inj h)

variable {Q : Keywords Schema → Prop} {fields : Fields Reading} {k : Keywords Schema}

/-- The parts of keywords come from the fields that give them. -/
theorem Gives.everywhere_of_mem_parts (h : Gives fields k) (hfields : ∀ e ∈ fields, Holds Q e.2) :
    ∀ part ∈ k.parts, part.Everywhere Q := by
  have hmembers {name : String} {members : List Schema}
      (hread : Fields.read? fields name [] Reading.schemas = some members) :
      ∀ part ∈ members, part.Everywhere Q := by
    rcases Fields.exists_of_read? hread with rfl | ⟨e, he, hmembers⟩
    · exact fun _ hpart => absurd hpart List.not_mem_nil
    · exact (hfields e he).schemas members hmembers
  simp only [Keywords.parts, List.forall_mem_append, List.forall_mem_map]
  refine ⟨⟨⟨⟨⟨?_, ?_⟩, ?_⟩, hmembers h.allOf⟩, hmembers h.oneOf⟩, hmembers h.anyOf⟩
  · rcases Fields.exists_of_read? h.properties with hnil | ⟨e, he, htable⟩
    · rw [hnil]
      exact fun _ hpart => absurd hpart List.not_mem_nil
    · exact (hfields e he).table _ htable
  · intro part hpart
    obtain ⟨additional, hadditional, hpart⟩ :=
      Option.bind_eq_some_iff.mp (Option.mem_toList.mp hpart)
    obtain ⟨e, he, r, hr, hread⟩ :=
      Fields.exists_mem_of_readOptional? (h.additional.trans (congrArg some hadditional))
    obtain rfl := eq_of_present? hr
    unfold additional? at hread
    split at hread
    · obtain rfl := Option.some.inj hread
      cases hpart
    · obtain ⟨s, hs, rfl⟩ := Option.map_eq_some_iff.mp hread
      obtain rfl := Option.some.inj hpart
      exact (hfields e he).schema s hs
  · intro part hpart
    obtain ⟨e, he, r, hr, hread⟩ := Fields.exists_mem_of_readOptional?
      (h.items.trans (congrArg some (Option.mem_toList.mp hpart)))
    obtain rfl := eq_of_present? hr
    exact (hfields e he).schema part hread

variable {P : Datum → Prop}
  (hkeywords : ∀ fields k, Gives fields k → (∀ e ∈ fields, P e.2.datum) → Q k)
include hkeywords

/-- Where values everywhere give keywords that hold, so do all readings of a value. -/
theorem holds_ofDatum {d : Datum} (hd : d.Everywhere P) : Holds Q (ofDatum d) := by
  induction hd with
  | @intro d own parts ih =>
      refine ⟨fun s hs => ?_, fun members hmembers s hs => ?_, fun properties htable p hp => ?_⟩
      · replace hs : Schema.ofDatum? d = some s := hs
        rw [Schema.ofDatum?_eq] at hs
        split at hs
        · obtain rfl := Option.some.inj hs
          exact .reference _
        · obtain ⟨k, hk, rfl⟩ := Option.map_eq_some_iff.mp hs
          obtain ⟨fields, hfields, hk⟩ := Option.bind_eq_some_iff.mp hk
          have hgives := keywords?_eq_some_iff.mp hk
          have hparts := Datum.mem_parts_of_fields? hfields
          refine .inline (hkeywords _ k hgives ?_) (hgives.everywhere_of_mem_parts ?_)
          · refine List.forall_mem_map.mpr fun e he => ?_
            rw [datum_ofDatum]
            exact (parts e.2 (hparts e he)).own
          · exact List.forall_mem_map.mpr fun e he => ih e.2 (hparts e he)
      · cases d with
        | list items =>
            rw [ofDatum, ofItems, ofDatums_eq_map] at hmembers
            obtain ⟨r, hr, hread⟩ := exists_mem_of_mapM hmembers hs
            obtain ⟨item, hitem, rfl⟩ := List.mem_map.mp hr
            exact (ih item hitem).schema s hread
        | _ => cases hmembers
      · cases d with
        | record entries =>
            rw [ofDatum, ofEntries, ofRecord_eq_map] at htable
            obtain ⟨read, hread, htable⟩ := Option.bind_eq_some_iff.mp htable
            obtain rfl := Option.some.inj htable
            have hmem : p ∈ read := by
              rcases Table.mem_of_get?_extend (Table.mem_entries_iff.mp hp) with hmem | hempty
              · exact hmem
              · cases hempty
            obtain ⟨e, he, hread⟩ := exists_mem_of_mapM hread hmem
            obtain ⟨entry, hentry, rfl⟩ := List.mem_map.mp he
            obtain ⟨_, -, hread⟩ := Option.bind_eq_some_iff.mp hread
            obtain ⟨s, hs, hread⟩ := Option.bind_eq_some_iff.mp hread
            obtain rfl := Option.some.inj hread
            exact (ih entry.2 (List.mem_map_of_mem hentry)).schema s hs
        | _ => cases htable

end Reading

/-- What the fields of keywords have from the typed value passes to all levels of the schema that it
is. -/
theorem Schema.everywhere_of_ofDatum? {P : Datum → Prop} {Q : Keywords Schema → Prop}
    (hkeywords : ∀ fields k, Reading.Gives fields k → (∀ e ∈ fields, P e.2.datum) → Q k)
    {d : Datum} (hd : d.Everywhere P) {s : Schema} (hs : Schema.ofDatum? d = some s) :
    s.Everywhere Q :=
  (Reading.holds_ofDatum hkeywords hd).schema s hs

/-! ### Bodies -/

/-- What holds of all values of a list holds of those of the table made of it. -/
theorem Table.forall_mem_values_ofList {α : Type} {T : α → Prop} {entries : List (String × α)}
    (h : ∀ e ∈ entries, T e.2) : ∀ value ∈ (Table.ofList entries).values, T value := by
  intro value hvalue
  obtain ⟨key, hkey⟩ := Table.mem_values_iff.mp hvalue
  rcases Table.mem_of_get?_extend hkey with hmem | hempty
  · exact h _ hmem
  · exact nomatch hempty

section Typed

variable {P : Datum → Prop} {S : Schema → Prop}
  (hS : ∀ {d : Datum}, d.Everywhere P → ∀ {s}, Schema.ofDatum? d = some s → S s)
include hS

/-- The schema of a media type that is read from a value of the kind is of the kind. -/
theorem MediaType.forall_schema_of_ofDatum? {d : Datum} (hd : d.Everywhere P) {media : MediaType}
    (h : MediaType.ofDatum? d = some media) {s : Schema} (hs : media.schema = some s) : S s := by
  obtain ⟨fields, hfields, h⟩ := Option.bind_eq_some_iff.mp h
  have hpart : ∀ e ∈ fields, e.2.Everywhere P := fun e he =>
    hd.part (Datum.mem_parts_of_fields? hfields e he)
  have hmedia : Fields.readOptional? fields "schema" Schema.ofDatum? = some media.schema := by
    split at h
    · exact nomatch h
    · obtain ⟨schema, hschema, h⟩ := Option.bind_eq_some_iff.mp h
      exact Option.some.inj h ▸ hschema
  obtain ⟨e, he, part, hpresent, hread⟩ :=
    Fields.exists_mem_of_readOptional? (hmedia.trans (congrArg some hs))
  exact hS (Datum.eq_of_present? hpresent ▸ hpart e he) hread

/-- So are the schemas of a content. -/
theorem Content.forall_schemas_of_ofDatum? {d : Datum} (hd : d.Everywhere P) {content : Content}
    (h : Content.ofDatum? d = some content) : ∀ s ∈ Content.schemas content, S s := by
  obtain ⟨entries, hentries, rfl⟩ := Option.map_eq_some_iff.mp h
  intro s hs
  obtain ⟨media, hmedia, hs⟩ := List.mem_filterMap.mp hs
  refine Table.forall_mem_values_ofList (T := fun media => media.schema = some s → S s) ?_ media
    hmedia hs
  intro e he
  obtain ⟨parts, hparts, hread⟩ := Option.bind_eq_some_iff.mp hentries
  obtain ⟨part, hpart, hread⟩ := exists_mem_of_mapM hread he
  obtain ⟨_, hmedia, rfl⟩ := Option.map_eq_some_iff.mp hread
  exact MediaType.forall_schema_of_ofDatum? hS
    (hd.part (Datum.mem_parts_of_entries? hparts part hpart)) hmedia

/-- So are those of a request body. -/
theorem RequestBody.forall_schemas_of_ofDatum? {d : Datum} (hd : d.Everywhere P)
    {body : RequestBody} (h : RequestBody.ofDatum? d = some body) : ∀ s ∈ body.schemas, S s := by
  obtain ⟨fields, hfields, h⟩ := Option.bind_eq_some_iff.mp h
  obtain ⟨content, hcontent, h⟩ := Option.bind_eq_some_iff.mp h
  obtain rfl := Option.some.inj h
  rcases Fields.exists_of_read? hcontent with rfl | ⟨e, he, hread⟩
  · exact fun _ hs => absurd hs List.not_mem_nil
  · exact Content.forall_schemas_of_ofDatum? hS
      (hd.part (Datum.mem_parts_of_fields? hfields e he)) hread

/-- So are those of a response. -/
theorem Response.forall_schemas_of_ofDatum? {d : Datum} (hd : d.Everywhere P)
    {r : Response} (h : Response.ofDatum? d = some r) : ∀ s ∈ r.schemas, S s := by
  obtain ⟨fields, hfields, h⟩ := Option.bind_eq_some_iff.mp h
  obtain ⟨description, -, h⟩ := Option.bind_eq_some_iff.mp h
  obtain ⟨content, hcontent, h⟩ := Option.bind_eq_some_iff.mp h
  obtain rfl := Option.some.inj h
  rcases Fields.exists_of_read? hcontent with rfl | ⟨e, he, hread⟩
  · exact fun _ hs => absurd hs List.not_mem_nil
  · exact Content.forall_schemas_of_ofDatum? hS
      (hd.part (Datum.mem_parts_of_fields? hfields e he)) hread

end Typed

/-- A reference in place of a part has no schemas, so only the part itself counts. -/
theorem OrReference.forall_schemas_of_ofDatum? {α : Type} {S : Schema → Prop}
    {read : Datum → Option α} {schemas : α → List Schema} {d : Datum}
    (hread : ∀ {value}, read d = some value → ∀ s ∈ schemas value, S s) {part : OrReference α}
    (h : OrReference.ofDatum? read d = some part) : ∀ s ∈ part.schemas schemas, S s := by
  rw [OrReference.ofDatum?] at h
  split at h
  · obtain rfl := Option.some.inj h
    exact fun _ hs => absurd hs List.not_mem_nil
  · obtain ⟨value, hvalue, rfl⟩ := Option.map_eq_some_iff.mp h
    exact hread hvalue

/-! ### Documents -/

/-- What passes from a part of a document to all parts that are read in it, and makes `P` hold
everywhere in their typed values. -/
structure Inherited {ν : Type} [Source ν] (G : ν → Prop) (P : Datum → Prop) : Prop where
  present : ∀ {part part'}, G part → Optional.present? part = some (some part') → G part'
  entries : ∀ {part entries}, G part → Source.entries? part = some entries → ∀ e ∈ entries, G e.2
  fields : ∀ {known part fields}, G part → Source.fields? known part = some fields →
    ∀ e ∈ fields, G e.2
  datum : ∀ {part d}, G part → Source.datum? part = some d → d.Everywhere P

section Documents

variable {ν : Type} [Source ν] {G : ν → Prop} {P : Datum → Prop} {S : Schema → Prop}
  (hG : Inherited G P)
  (hS : ∀ {d : Datum}, d.Everywhere P → ∀ {s}, Schema.ofDatum? d = some s → S s)
include hG

/-- An optional field is read from a part that inherits. -/
theorem Inherited.of_readOptional? {α : Type} {fields : Fields ν} (hfields : ∀ e ∈ fields, G e.2)
    {name : String} {read : ν → Option α} {value : α}
    (h : Fields.readOptional? fields name read = some (some value)) :
    ∃ part, G part ∧ read part = some value := by
  obtain ⟨e, he, part, hpart, hread⟩ := Fields.exists_mem_of_readOptional? h
  exact ⟨part, hG.present (hfields e he) hpart, hread⟩

/-- Every entry is read from a part that inherits. -/
theorem Inherited.of_readEntries? {α : Type} {part : ν} (hpart : G part) {read : ν → Option α}
    {entries : List (String × α)} (h : Source.readEntries? read part = some entries) :
    ∀ e ∈ entries, ∃ part', G part' ∧ read part' = some e.2 := by
  intro e he
  obtain ⟨parts, hparts, hread⟩ := Option.bind_eq_some_iff.mp h
  obtain ⟨e', he', hread⟩ := exists_mem_of_mapM hread he
  obtain ⟨_, hvalue, rfl⟩ := Option.map_eq_some_iff.mp hread
  exact ⟨e'.2, hG.entries hpart hparts e' he', hvalue⟩

/-- Every value of a typed table is read from a value in which `P` holds everywhere. -/
theorem Inherited.of_readTyped? {α : Type} {part : ν} (hpart : G part) {read : Datum → Option α}
    {table : Table α} (h : readTyped? read part = some table) :
    ∀ value ∈ table.values, ∃ d : Datum, d.Everywhere P ∧ read d = some value := by
  obtain ⟨entries, hentries, rfl⟩ := Option.map_eq_some_iff.mp h
  refine Table.forall_mem_values_ofList fun e he => ?_
  obtain ⟨part', hpart', hread⟩ := hG.of_readEntries? hpart hentries e he
  obtain ⟨d, hd, hread⟩ := Option.bind_eq_some_iff.mp hread
  exact ⟨d, hG.datum hpart' hd, hread⟩

include hS

/-- The schemas of responses are of the kind. -/
theorem Inherited.responses {part : ν} (hpart : G part) {responses : Table (OrReference Response)}
    (h : readTyped? (OrReference.ofDatum? Response.ofDatum?) part = some responses) :
    ∀ s ∈ responses.values.flatMap (·.schemas Response.schemas), S s := by
  intro s hs
  obtain ⟨r, hr, hs⟩ := List.mem_flatMap.mp hs
  obtain ⟨d, hd, hread⟩ := hG.of_readTyped? hpart h r hr
  exact OrReference.forall_schemas_of_ofDatum?
    (fun hvalue => Response.forall_schemas_of_ofDatum? hS hd hvalue) hread s hs

/-- So are those of request bodies. -/
theorem Inherited.requestBodies {part : ν} (hpart : G part)
    {bodies : Table (OrReference RequestBody)}
    (h : readTyped? (OrReference.ofDatum? RequestBody.ofDatum?) part = some bodies) :
    ∀ s ∈ bodies.values.flatMap (·.schemas RequestBody.schemas), S s := by
  intro s hs
  obtain ⟨body, hbody, hs⟩ := List.mem_flatMap.mp hs
  obtain ⟨d, hd, hread⟩ := hG.of_readTyped? hpart h body hbody
  exact OrReference.forall_schemas_of_ofDatum?
    (fun hvalue => RequestBody.forall_schemas_of_ofDatum? hS hd hvalue) hread s hs

/-- So are those of an operation. -/
theorem Operation.forall_schemas_of_read? {part : ν} (hpart : G part) {o : Operation}
    (h : Operation.read? part = some o) : ∀ s ∈ o.schemas, S s := by
  obtain ⟨fields, hfields, h⟩ := Option.bind_eq_some_iff.mp h
  have hinner := hG.fields hpart hfields
  obtain ⟨operationId, -, h⟩ := Option.bind_eq_some_iff.mp h
  obtain ⟨summary, -, h⟩ := Option.bind_eq_some_iff.mp h
  obtain ⟨body, hbody, h⟩ := Option.bind_eq_some_iff.mp h
  obtain ⟨responses, hresponses, h⟩ := Option.bind_eq_some_iff.mp h
  obtain rfl := Option.some.inj h
  refine List.forall_mem_append.mpr ⟨fun s hs => ?_, ?_⟩
  · obtain ⟨request, hrequest, hown⟩ := List.mem_flatMap.mp hs
    obtain rfl : body = some request := Option.mem_toList.mp hrequest
    obtain ⟨part', hpart', hread⟩ := hG.of_readOptional? hinner hbody
    obtain ⟨d, hd, hread⟩ := Option.bind_eq_some_iff.mp hread
    exact OrReference.forall_schemas_of_ofDatum? (fun hvalue =>
      RequestBody.forall_schemas_of_ofDatum? hS (hG.datum hpart' hd) hvalue) hread s hown
  · rcases Fields.exists_of_read? hresponses with rfl | ⟨e, he, hread⟩
    · exact fun _ hs => absurd hs List.not_mem_nil
    · exact hG.responses hS (hinner e he) hread

/-- So are those of the operations of a path. -/
theorem PathItem.forall_schemas_of_read? {part : ν} (hpart : G part) {item : PathItem}
    (h : PathItem.read? part = some item) : ∀ s ∈ item.schemas, S s := by
  obtain ⟨fields, hfields, h⟩ := Option.bind_eq_some_iff.mp h
  have hinner := hG.fields hpart hfields
  obtain ⟨summary, -, h⟩ := Option.bind_eq_some_iff.mp h
  obtain ⟨operations, hoperations, h⟩ := Option.bind_eq_some_iff.mp h
  obtain rfl := Option.some.inj h
  intro s hs
  obtain ⟨pair, hpair, hs⟩ := List.mem_flatMap.mp hs
  obtain ⟨read, hread, heq⟩ := List.mem_filterMap.mp hpair
  obtain rfl : read = some pair := heq
  obtain ⟨method, -, hmethod⟩ := exists_mem_of_mapM hoperations hread
  obtain ⟨operation, hoperation, hmethod⟩ := Option.bind_eq_some_iff.mp hmethod
  obtain ⟨o, rfl, rfl⟩ := Option.map_eq_some_iff.mp (Option.some.inj hmethod)
  obtain ⟨part', hpart', hread⟩ := hG.of_readOptional? hinner hoperation
  exact Operation.forall_schemas_of_read? hG hS hpart' hread s hs

/-- So are those of components. -/
theorem Components.forall_schemas_of_read? {part : ν} (hpart : G part) {components : Components}
    (h : Components.read? part = some components) : ∀ s ∈ components.allSchemas, S s := by
  obtain ⟨fields, hfields, h⟩ := Option.bind_eq_some_iff.mp h
  have hinner := hG.fields hpart hfields
  obtain ⟨schemas, hschemas, h⟩ := Option.bind_eq_some_iff.mp h
  obtain ⟨responses, hresponses, h⟩ := Option.bind_eq_some_iff.mp h
  obtain ⟨bodies, hbodies, h⟩ := Option.bind_eq_some_iff.mp h
  obtain rfl := Option.some.inj h
  refine List.forall_mem_append.mpr ⟨List.forall_mem_append.mpr ⟨fun s hs => ?_, ?_⟩, ?_⟩
  · rcases Fields.exists_of_read? hschemas with rfl | ⟨e, he, hread⟩
    · exact absurd hs List.not_mem_nil
    · obtain ⟨d, hd, hread⟩ := hG.of_readTyped? (hinner e he) hread s hs
      exact hS hd hread
  · rcases Fields.exists_of_read? hresponses with rfl | ⟨e, he, hread⟩
    · exact fun _ hs => absurd hs List.not_mem_nil
    · exact hG.responses hS (hinner e he) hread
  · rcases Fields.exists_of_read? hbodies with rfl | ⟨e, he, hread⟩
    · exact fun _ hs => absurd hs List.not_mem_nil
    · exact hG.requestBodies hS (hinner e he) hread

/-- What holds of the schemas of typed values holds of all schemas of a document. -/
theorem Document.forall_schemas_of_read? {part : ν} (hpart : G part) {d : Document}
    (h : Document.read? part = some d) : ∀ s ∈ d.schemas, S s := by
  obtain ⟨fields, hfields, h⟩ := Option.bind_eq_some_iff.mp h
  have hinner := hG.fields hpart hfields
  obtain ⟨openapi, -, h⟩ := Option.bind_eq_some_iff.mp h
  obtain ⟨info, -, h⟩ := Option.bind_eq_some_iff.mp h
  obtain ⟨paths, hpaths, h⟩ := Option.bind_eq_some_iff.mp h
  obtain ⟨components, hcomponents, h⟩ := Option.bind_eq_some_iff.mp h
  obtain rfl := Option.some.inj h
  refine List.forall_mem_append.mpr ⟨fun s hs => ?_, fun s hs => ?_⟩
  · obtain ⟨table, htable, hown⟩ := List.mem_flatMap.mp hs
    obtain rfl : paths = some table := Option.mem_toList.mp htable
    obtain ⟨part', hpart', hread⟩ := hG.of_readOptional? hinner hpaths
    obtain ⟨entries, hentries, rfl⟩ := Option.map_eq_some_iff.mp hread
    obtain ⟨item, hitem, hown⟩ := List.mem_flatMap.mp hown
    refine Table.forall_mem_values_ofList (T := fun item => ∀ s ∈ PathItem.schemas item, S s)
      (fun e he => ?_) item hitem s hown
    obtain ⟨part'', hpart'', hread⟩ := hG.of_readEntries? hpart' hentries e he
    exact PathItem.forall_schemas_of_read? hG hS hpart'' hread
  · obtain ⟨c, hc, hown⟩ := List.mem_flatMap.mp hs
    obtain rfl : components = some c := Option.mem_toList.mp hc
    obtain ⟨part', hpart', hread⟩ := hG.of_readOptional? hinner hcomponents
    exact Components.forall_schemas_of_read? hG hS hpart' hread s hown

end Documents

end OpenApiZod

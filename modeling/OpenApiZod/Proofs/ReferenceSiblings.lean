import OpenApiZod.Compilation
import OpenApiZod.Proofs.BareDocuments

/-!
# Siblings of references

A JSON value with one text under `$ref` is a reference where a schema, a response or a request body
stands, and what else it holds does not matter. Any other value is read as if it had nothing under
`$ref`: two texts there, or a number, are no reference and no error either.

So documents that differ in siblings of references are one document, and what is made of them is the
same (`Reference.siblings_do_not_matter`). This takes siblings with typed values. A number that is
beyond the finite ones makes a document unreadable, next to a reference too
(`Reference.sibling_without_value`).
-/

namespace OpenApiZod

/-! ### One value -/

namespace Datum

/-- The values under `$ref`. -/
def references : Datum → List Datum
  | .record entries => (entries.filter fun e => e.1.text? = some "$ref").map Prod.snd
  | _ => []

/-- The value without its members under `$ref`. -/
def withoutReferences : Datum → Datum
  | .record entries => .record (entries.filter fun e => e.1.text? ≠ some "$ref")
  | d => d

/-- A record whose keys are texts. -/
def object (members : List (String × Datum)) : Datum :=
  .record (members.map fun e => (.text e.1, e.2))

variable {members : List (String × Datum)}

/-- The references of an object are the values under the keyword. -/
theorem references_object :
    (object members).references = (members.filter fun e => e.1 = "$ref").map Prod.snd := by
  simp [references, object, List.filter_map, Function.comp_def, text?]

/-- Without its references, an object keeps the members under other names. -/
theorem withoutReferences_object :
    (object members).withoutReferences = object (members.filter fun e => e.1 ≠ "$ref") := by
  simp [withoutReferences, object, List.filter_map, Function.comp_def, text?]

/-- The fields of named entries are those of the names. -/
theorem fieldsOfEntries?_object (known : List String) :
    fieldsOfEntries? known (members.map fun e => (.text e.1, e.2)) =
      Fields.ofEntries? known members := by
  have hnamed : (members.map fun e => (text e.1, e.2)).mapM
      (fun e => (fieldName? known e.1).map (·, e.2)) =
        some (members.map fun e => (some e.1, e.2)) := by
    induction members with
    | nil => rfl
    | cons e rest ih =>
        rw [List.map_cons, List.mapM_cons, ih]
        rfl
  rw [fieldsOfEntries?_eq, hnamed, Option.bind_some, List.filterMap_map]
  congr 1
  induction members with
  | nil => rfl
  | cons e rest ih => simp_all

/-- An object is a reference exactly if it has one member under `$ref` and that is a text. -/
theorem referenceTarget?_object (target : String) :
    (object members).referenceTarget? = some target ↔
      (object members).references = [.text target] := by
  have hfound : (members.filter fun e => e.1 = "$ref") = members.filter (·.1 ∈ ["$ref"]) := by
    simp
  rw [references_object, hfound, object, referenceTarget?, fieldsOfEntries?_object,
    Fields.ofEntries?]
  generalize members.filter (·.1 ∈ ["$ref"]) = found
  cases found with
  | nil => simp
  | cons e rest =>
      obtain ⟨name, part⟩ := e
      cases rest with
      | nil => cases part <;> simp
      | cons next rest =>
          simp only [List.map_cons]
          split
          · rename_i heq
            split at heq <;> simp at heq
          · simp

/-- Where the keyword is no known field, the fields of an object do not depend on its references. -/
theorem fields?_withoutReferences {known : List String} (hknown : "$ref" ∉ known) :
    (object members).withoutReferences.fields? known = (object members).fields? known := by
  rw [withoutReferences_object, object, object, fields?, fields?, fieldsOfEntries?_object,
    fieldsOfEntries?_object]
  have hfound : (members.filter fun e => e.1 ≠ "$ref").filter (·.1 ∈ known) =
      members.filter (·.1 ∈ known) := by
    rw [List.filter_filter]
    refine List.filter_congr fun e _ => ?_
    by_cases hname : e.1 = "$ref"
    · simp [hname, hknown]
    · simp [hname]
  simp only [Fields.ofEntries?, hfound]

end Datum

namespace Json.Tree

/-- The members of a JSON object are named by texts. -/
theorem exists_of_datumMembers? {members : List (Option String × Tree)}
    {entries : List (Datum × Datum)} (h : datumMembers? members = some entries) :
    ∃ typed : List (String × Datum), entries = typed.map fun e => (.text e.1, e.2) := by
  induction members generalizing entries with
  | nil =>
      obtain rfl := Option.some.inj h
      exact ⟨[], rfl⟩
  | cons e rest ih =>
      obtain ⟨key, t⟩ := e
      unfold datumMembers? at h
      split at h
      · rename_i name d entries' _ hrest
        obtain rfl := Option.some.inj h
        obtain ⟨typed, rfl⟩ := ih hrest
        exact ⟨(name, d) :: typed, rfl⟩
      · cases h

/-- The value of a numeral is no record. -/
theorem ne_record_of_datum? {n : Numeral} {d : Datum} (h : n.datum? = some d)
    (entries : List (Datum × Datum)) : d ≠ .record entries := by
  rintro rfl
  cases n <;> simp only [Numeral.datum?, Numeral.datum?.finite?] at h <;> split_ifs at h <;>
    cases h

/-- The typed value of a JSON text is an object or no record at all. -/
theorem exists_object_of_datum? {t : Tree} {d : Datum} (h : t.datum? = some d) :
    (∃ members, d = Datum.object members) ∨ ∀ entries, d ≠ .record entries := by
  cases t with
  | object members =>
      obtain ⟨entries, hentries, rfl⟩ := Option.map_eq_some_iff.mp h
      obtain ⟨typed, rfl⟩ := exists_of_datumMembers? hentries
      exact .inl ⟨typed, rfl⟩
  | number n => exact .inr (ne_record_of_datum? h)
  | null | bool _ =>
      obtain rfl := Option.some.inj h
      exact .inr nofun
  | string _ | array _ =>
      obtain ⟨_, -, rfl⟩ := Option.map_eq_some_iff.mp h
      exact .inr nofun

variable {t : Tree} {d : Datum} (h : t.datum? = some d)
include h

/-- A value is a reference if it has one reference, a text. -/
theorem referenceTarget?_eq_some_iff {target : String} :
    d.referenceTarget? = some target ↔ d.references = [.text target] := by
  obtain ⟨members, rfl⟩ | hd := exists_object_of_datum? h
  · exact Datum.referenceTarget?_object target
  · cases d with
    | record entries => exact absurd rfl (hd entries)
    | _ => simp [Datum.referenceTarget?, Datum.references]

/-- Where the keyword is no known field, the fields of a value do not depend on its references. -/
theorem fields?_withoutReferences {known : List String} (hknown : "$ref" ∉ known) :
    d.withoutReferences.fields? known = d.fields? known := by
  obtain ⟨members, rfl⟩ | hd := exists_object_of_datum? h
  · exact Datum.fields?_withoutReferences hknown
  · cases d with
    | record entries => exact absurd rfl (hd entries)
    | _ => rfl

/-- A JSON value with one text under `$ref` is a reference, whatever it holds besides. -/
theorem reads_reference {target : String} (hd : d.references = [.text target]) :
    Schema.ofDatum? d = some (.reference target) ∧
      OrReference.ofDatum? Response.ofDatum? d = some (.reference target) ∧
      OrReference.ofDatum? RequestBody.ofDatum? d = some (.reference target) := by
  have htarget := (referenceTarget?_eq_some_iff h).mpr hd
  simp only [Schema.ofDatum?_eq, OrReference.ofDatum?, htarget, and_self]

/-- Any other JSON value is read as if it had nothing under `$ref`. -/
theorem reads_plain (hd : ∀ target, d.references ≠ [.text target]) :
    Schema.ofDatum? d = (Keywords.ofDatum? d.withoutReferences).map .inline ∧
      OrReference.ofDatum? Response.ofDatum? d =
        (Response.ofDatum? d.withoutReferences).map .inline ∧
      OrReference.ofDatum? RequestBody.ofDatum? d =
        (RequestBody.ofDatum? d.withoutReferences).map .inline := by
  have hplain : d.referenceTarget? = none := by
    rw [Option.eq_none_iff_forall_ne_some]
    exact fun target htarget => hd target ((referenceTarget?_eq_some_iff h).mp htarget)
  have hkeywords := fields?_withoutReferences h (show "$ref" ∉ Reading.keywordNames by decide)
  have hresponse := fields?_withoutReferences h (show "$ref" ∉ ["description", "content"] by decide)
  have hbody := fields?_withoutReferences h (show "$ref" ∉ ["content"] by decide)
  simp only [Schema.ofDatum?_eq, OrReference.ofDatum?, hplain, Keywords.ofDatum?,
    Response.ofDatum?, RequestBody.ofDatum?, hkeywords, hresponse, hbody, and_self]

end Json.Tree

/-! ### Two documents -/

/-- Texts of documents that differ in siblings of references only. In YAML, where aliases stand for
parts that are written elsewhere, they are related part by part. -/
def Format.SameBare : Format → String → String → Prop
  | .json, text, text' =>
    (Json.Tree.read? text).map (·.bare .document) = (Json.Tree.read? text').map (·.bare .document)
  | .yaml, text, text' => ∃ R, Simulation R ∧
    Option.Rel (R .document) (Yaml.Part.read? text) (Yaml.Part.read? text')

/-- What is made of a text: the interface with the warnings on the way to it, and its files. -/
def Format.compile (format : Format) (naming : Naming) (options : OutputOptions) (text : String) :
    Option (Except ApiError (Checked Api × Compilation)) :=
  (Document.ofText? format text).map fun d =>
    (Api.ofDocument naming d).map fun checked => (checked, checked.value.compile options)

/-- Texts that are the same but for the siblings of references are the same document. -/
theorem Document.ofText?_eq {format : Format} {text text' : String}
    (h : format.SameBare text text') :
    Document.ofText? format text = Document.ofText? format text' := by
  cases format with
  | json => exact bind_eq_of_rel (rel_of_map_eq h) fun _ _ => Json.Tree.simulation_bare.document_eq
  | yaml =>
      obtain ⟨R, hR, hparts⟩ := h
      exact bind_eq_of_rel hparts fun _ _ => hR.document_eq

/-- **Siblings of references.** A JSON value that has one text under `$ref`, among members of any
kind that have typed values, is read as a reference to that text; any other is read as a plain
schema, response or request body, without what it has under `$ref`. So documents that differ in
siblings of references only are the same document, and give the same interface, warnings and
files. -/
theorem Reference.siblings_do_not_matter :
    (∀ (t : Json.Tree) (d : Datum), t.datum? = some d →
      (∀ target, d.references = [.text target] →
        Schema.ofDatum? d = some (.reference target) ∧
          OrReference.ofDatum? Response.ofDatum? d = some (.reference target) ∧
          OrReference.ofDatum? RequestBody.ofDatum? d = some (.reference target)) ∧
      ((∀ target, d.references ≠ [.text target]) →
        Schema.ofDatum? d = (Keywords.ofDatum? d.withoutReferences).map .inline ∧
          OrReference.ofDatum? Response.ofDatum? d =
            (Response.ofDatum? d.withoutReferences).map .inline ∧
          OrReference.ofDatum? RequestBody.ofDatum? d =
            (RequestBody.ofDatum? d.withoutReferences).map .inline)) ∧
      ∀ (format : Format) (text text' : String), format.SameBare text text' →
        Document.ofText? format text = Document.ofText? format text' ∧
          ∀ naming options, format.compile naming options text =
            format.compile naming options text' := by
  refine ⟨fun t d h => ⟨fun _ => Json.Tree.reads_reference h, Json.Tree.reads_plain h⟩,
    fun format text text' h => ⟨Document.ofText?_eq h, fun naming options => ?_⟩⟩
  rw [Format.compile, Format.compile, Document.ofText?_eq h]

/-- A document whose one component is an object with the given members. -/
def Json.Tree.componentDocument (members : List (Option String × Tree)) : Tree :=
  .object [(some "components", .object [(some "schemas", .object [(some "a", .object members)])])]

/-- The tree of the smallest document with a reference. -/
theorem Json.Tree.read?_componentDocument :
    read? "\x7b\"components\":\x7b\"schemas\":\x7b\"a\":\x7b\"$ref\":\"b\"\x7d\x7d\x7d\x7d" =
      some (componentDocument [(some "$ref", .string (some "b"))]) := by
  cbv

/-- The lines of a document whose one component holds what the given lines say. -/
def Yaml.componentText (lines : String) : String := "components:\n  schemas:\n    a:\n" ++ lines

/-- The tokens of these lines. -/
def Yaml.componentTokens (tokens : List Token) : List Token :=
  [.blockMappingStart, .key, .scalar .plain "components", .value,
    .blockMappingStart, .key, .scalar .plain "schemas", .value,
    .blockMappingStart, .key, .scalar .plain "a", .value, .blockMappingStart] ++ tokens ++
    [.blockEnd, .blockEnd, .blockEnd, .blockEnd]

/-- The node of these lines. -/
def Yaml.componentNode (entries : List (Node × Node)) : Node :=
  .mapping none none [(.scalar none none .plain "components", .mapping none none
    [(.scalar none none .plain "schemas", .mapping none none
      [(.scalar none none .plain "a", .mapping none none entries)])])]

/-- The part that a YAML document with one component stands for, from its tokens and its nodes. -/
theorem Yaml.read?_componentText (lines : String) (tokens : List Token)
    (entries : List (Node × Node))
    (htokens : tokens? (componentText lines) = some (componentTokens tokens))
    (hnode : Node.ofTokens? (componentTokens tokens) = some (componentNode entries)) :
    Part.read? (componentText lines) = some (.ofRoot (componentNode entries)) := by
  rw [Part.read?, htokens, Option.bind_some, hnode]
  rfl

/-- Siblings that as keywords would be repeated and of the wrong type. -/
theorem Reference.siblings_do_not_matter_repeated :
    let text := "\x7b\"components\":\x7b\"schemas\":\x7b\"a\":\x7b\"$ref\":\"b\"\x7d\x7d\x7d\x7d"
    let text' := "\x7b\"components\":\x7b\"schemas\":\x7b\"a\":" ++
      "\x7b\"type\":5,\"$ref\":\"b\",\"type\":[]\x7d\x7d\x7d\x7d"
    let lines := "components:\n  schemas:\n    a:\n      $ref: b\n"
    let lines' := "components:\n  schemas:\n    a:\n      type: 5\n      $ref: b\n      type: []\n"
    Schema.ofDatum? (.record [(.text "type", .int 5), (.text "$ref", .text "b"),
        (.text "type", .list [])]) = some (.reference "b") ∧
      (Format.SameBare .json text text' ∧ (Document.ofText? .json text).isSome = true ∧
        Document.ofText? .json text = Document.ofText? .json text') ∧
      Format.SameBare .yaml lines lines' ∧ (Document.ofText? .yaml lines).isSome = true ∧
        Document.ofText? .yaml lines = Document.ofText? .yaml lines' := by
  intro text text' lines lines'
  obtain ⟨hvalues, hdocuments⟩ := Reference.siblings_do_not_matter
  refine ⟨?_, ?_, ?_⟩
  · let t : Json.Tree := .object [(some "type", .number (.integer false 5)),
      (some "$ref", .string (some "b")), (some "type", .array [])]
    exact ((hvalues t _ rfl).1 "b" (by simp [Datum.references, Datum.text?])).1
  · have hread := Json.Tree.read?_componentDocument
    have hread' : Json.Tree.read? text' = some (.componentDocument
        [(some "type", .number (.integer false 5)), (some "$ref", .string (some "b")),
          (some "type", .array [])]) := by
      have hfive (rest : List Char) :
          Json.readNumber? ('5' :: ',' :: rest) = some (.integer false 5, ',' :: rest) := rfl
      simp [text', Json.Tree.read?, Json.Tree.depthLimit, Json.Tree.componentDocument,
        Json.readValue?, Json.readMembers?, Json.readString?, Json.readPieces?, Json.textOf?,
        Json.skipSpace, hfive]
    have hsame : Format.SameBare .json text text' := by
      rw [Format.SameBare, hread, hread']
      rfl
    exact ⟨hsame, by rw [Document.ofText?, hread]; rfl, (hdocuments .json text text' hsame).1⟩
  · let word (text : String) : Yaml.Node := .scalar none none .plain text
    let tokens : List Yaml.Token := [.key, .scalar .plain "$ref", .value, .scalar .plain "b"]
    let tokens' : List Yaml.Token := [.key, .scalar .plain "type", .value, .scalar .plain "5"] ++
      tokens ++ [.key, .scalar .plain "type", .value, .flowSequenceStart, .flowSequenceEnd]
    let entries := [(word "$ref", word "b")]
    let entries' := (word "type", word "5") :: entries ++ [(word "type", .sequence none none [])]
    have hread : Yaml.Part.read? lines = some (.ofRoot (Yaml.componentNode entries)) :=
      Yaml.read?_componentText "      $ref: b\n" tokens entries (by decide +kernel) (by cbv)
    have hread' : Yaml.Part.read? lines' = some (.ofRoot (Yaml.componentNode entries')) :=
      Yaml.read?_componentText "      type: 5\n      $ref: b\n      type: []\n" tokens' entries'
        (by decide +kernel) (by cbv)
    have hsame : Format.SameBare .yaml lines lines' := by
      refine ⟨Yaml.Part.SameBare, Yaml.Part.simulation_sameBare, ?_⟩
      rw [hread, hread']
      refine .some (.mapping_singleton rfl rfl rfl rfl rfl rfl ?_)
      refine .mapping_singleton rfl rfl rfl rfl rfl rfl ?_
      refine .mapping_singleton rfl rfl rfl rfl rfl rfl (.typed rfl rfl ?_)
      rfl
    exact ⟨hsame, by rw [Document.ofText?, hread]; rfl, (hdocuments .yaml lines lines' hsame).1⟩

/-- A sibling without a typed value does matter: a number beyond the finite ones makes the document
unreadable. -/
theorem Reference.sibling_without_value :
    let text := "\x7b\"components\":\x7b\"schemas\":\x7b\"a\":\x7b\"$ref\":\"b\"\x7d\x7d\x7d\x7d"
    let text' := "\x7b\"components\":\x7b\"schemas\":\x7b\"a\":" ++
      "\x7b\"$ref\":\"b\",\"x\":1e999\x7d\x7d\x7d\x7d"
    (Document.ofText? .json text).isSome = true ∧ Document.ofText? .json text' = none := by
  intro text text'
  have hread' : Json.Tree.read? text' = some (.componentDocument
      [(some "$ref", .string (some "b")),
        (some "x", .number (.decimal false ['1'] [] 999))]) := by
    have hnumber (rest : List Char) :
        Json.readNumber? ('1' :: 'e' :: '9' :: '9' :: '9' :: '\x7d' :: rest) =
          some (.decimal false ['1'] [] 999, '\x7d' :: rest) := rfl
    simp [text', Json.Tree.read?, Json.Tree.depthLimit, Json.Tree.componentDocument,
      Json.readValue?, Json.readMembers?, Json.readString?, Json.readPieces?, Json.textOf?,
      Json.skipSpace, hnumber]
  refine ⟨?_, ?_⟩
  · rw [Document.ofText?, Json.Tree.read?_componentDocument]
    rfl
  · rw [Document.ofText?, hread']
    rfl

end OpenApiZod

import OpenApiZod.Proofs.DocumentSchemas
import OpenApiZod.Proofs.SchemaTrees

/-!
# Two spellings of one schema

The older spelling of a schema makes a bound exclusive by a flag beside it, and a type nullable by
another flag. The newer one writes exclusive bounds as numbers and `null` in the list of types.
`Schema.respelled` goes from the older to the newer spelling at every level of a schema, and leaves
no such flag behind (`Schema.everywhere_respelled`).

Both spellings have one shape. The bounds come apart in the same way (`splitBound_respelled`), and
where the type decides, the flag and the list wrap its shape in the same way
(`Shape.ofKeywords_withNullInTypes`). The rest follows level by level, and a document may be written
in either spelling (`Api.ofDocument_respelled`).
-/

namespace OpenApiZod

/-! ### The newer spelling -/

/-- An inclusive bound and the bound beside it, without flags. -/
def respelledBound (inclusive : Option Binary64) :
    Option ExclusiveBound → Option Binary64 × Option ExclusiveBound
  | some (.flag true) => (none, inclusive.map .value)
  | some (.flag false) => (inclusive, none)
  | some (.value bound) => (inclusive, some (.value bound))
  | none => (inclusive, none)

/-- The types that a flag makes nullable. -/
def TypeName.named : List TypeName := [.string, .number, .integer, .boolean, .array, .object]

namespace Keywords

variable {σ τ : Type}

/-- Whether the keywords leave it to the type to decide the shape. -/
def decidedByType (k : Keywords σ) : Bool :=
  k.allOf.isEmpty && k.oneOf.isEmpty && k.anyOf.isEmpty && k.const.isNone

/-- The single type that decides the shape of the keywords and is flagged as nullable, if there is
one. -/
def flaggedType? (k : Keywords σ) : Option TypeName :=
  match k.type, k.nullable with
  | some (.one name), some true =>
    if k.decidedByType ∧ name ∈ TypeName.named then some name else none
  | _, _ => none

/-- The keywords with numbers for exclusive bounds. -/
def withNumericBounds (k : Keywords σ) : Keywords σ :=
  { k with
    minimum := (respelledBound k.minimum k.exclusiveMinimum).1
    maximum := (respelledBound k.maximum k.exclusiveMaximum).1
    exclusiveMinimum := (respelledBound k.minimum k.exclusiveMinimum).2
    exclusiveMaximum := (respelledBound k.maximum k.exclusiveMaximum).2 }

/-- The keywords with a type and `null` for types, and without a flag. -/
def orNull (k : Keywords σ) (name : TypeName) : Keywords σ :=
  { k with type := some (.several [name, .null]), nullable := none }

/-- The keywords with `null` among the types in place of the flag. -/
def withNullInTypes (k : Keywords σ) : Keywords σ :=
  match k.flaggedType? with
  | some name => k.orNull name
  | none => k

/-- The keywords in the newer spelling. -/
def respelled (k : Keywords σ) : Keywords σ := k.withNumericBounds.withNullInTypes

/-- Keywords without flags of the older spelling. -/
structure InNewerSpelling (k : Keywords σ) : Prop where
  minimum : ∀ exclusive, k.exclusiveMinimum ≠ some (.flag exclusive)
  maximum : ∀ exclusive, k.exclusiveMaximum ≠ some (.flag exclusive)
  nullable : k.flaggedType? = none

/-- A type is flagged if it is the single one, the flag is set and the type decides the shape. -/
theorem flaggedType?_eq_some_iff {k : Keywords σ} {name : TypeName} :
    k.flaggedType? = some name ↔ k.type = some (.one name) ∧ k.nullable = some true ∧
      k.decidedByType = true ∧ name ∈ TypeName.named := by
  rw [flaggedType?]
  split
  · rename_i type htype hnullable
    rw [htype, hnullable, Option.ite_none_right_eq_some, Option.some.injEq, Option.some.injEq,
      TypeSet.one.injEq]
    constructor
    · rintro ⟨hdecided, rfl⟩
      exact ⟨rfl, rfl, hdecided⟩
    · rintro ⟨rfl, -, hdecided⟩
      exact ⟨hdecided, rfl⟩
  · rename_i hother
    refine ⟨nofun, ?_⟩
    rintro ⟨htype, hnullable, -⟩
    exact absurd hnullable (hother name htype)

/-- The flagged type does not depend on the parts. -/
theorem flaggedType?_map (f : σ → τ) (k : Keywords σ) :
    (k.map f).flaggedType? = k.flaggedType? := by
  simp only [flaggedType?, decidedByType, map, List.isEmpty_map]
  rfl

/-- The respelling looks at no part. -/
theorem respelled_map (f : σ → τ) (k : Keywords σ) : (k.map f).respelled = k.respelled.map f := by
  have hflagged : (k.map f).withNumericBounds.flaggedType? = k.withNumericBounds.flaggedType? :=
    flaggedType?_map f k.withNumericBounds
  rw [respelled, respelled, withNullInTypes, withNullInTypes, hflagged]
  split <;> rfl

/-- The respelling keeps the parts. -/
theorem parts_respelled (k : Keywords σ) : k.respelled.parts = k.parts := by
  rw [respelled, withNullInTypes]
  split <;> rfl

/-- Respelling keeps the description. -/
theorem description_respelled (k : Keywords σ) : k.respelled.description = k.description := by
  rw [respelled, withNullInTypes]
  split <;> rfl

/-- A bound in the newer spelling is no flag. -/
theorem respelledBound_ne_flag (inclusive : Option Binary64) (exclusive : Option ExclusiveBound)
    (flag : Bool) : (respelledBound inclusive exclusive).2 ≠ some (.flag flag) := by
  rcases exclusive with _ | (_ | _) | _ <;> cases inclusive <;> simp [respelledBound]

/-- Keywords that are respelled have no flags of the older spelling. -/
theorem inNewerSpelling_respelled (k : Keywords σ) : k.respelled.InNewerSpelling := by
  rw [respelled, withNullInTypes]
  split
  · exact ⟨respelledBound_ne_flag _ _, respelledBound_ne_flag _ _, rfl⟩
  · rename_i hunflagged
    exact ⟨respelledBound_ne_flag _ _, respelledBound_ne_flag _ _, hunflagged⟩

end Keywords

namespace Schema

/-- The schema in the newer spelling, at every level. -/
def respelled : Schema → Schema :=
  fold .reference fun k => .inline k.respelled

/-- A schema that is written out is respelled with all its parts. -/
theorem respelled_inline (k : Keywords Schema) :
    respelled (.inline k) = .inline (k.map respelled).respelled := by
  rw [respelled, fold_inline]

/-- What holds of the keywords at every level of a schema. -/
inductive Everywhere (P : Keywords Schema → Prop) : Schema → Prop
  | reference (target : String) : Everywhere P (.reference target)
  | inline {k : Keywords Schema} (own : P k) (parts : ∀ part ∈ k.parts, Everywhere P part) :
    Everywhere P (.inline k)

/-- The respelling leaves no flag of the older spelling at any level. -/
theorem everywhere_respelled (s : Schema) : s.respelled.Everywhere Keywords.InNewerSpelling := by
  induction s using Schema.induction with
  | reference target => exact .reference target
  | inline k ih =>
      rw [respelled_inline]
      refine .inline (Keywords.inNewerSpelling_respelled _) ?_
      rw [Keywords.parts_respelled, Keywords.parts_map, List.forall_mem_map]
      exact ih

end Schema

/-! ### One shape for both spellings -/

namespace Shape

/-- Both spellings of a bound come apart into the same inclusive and exclusive bound. -/
theorem splitBound_respelled (inclusive : Option Binary64) (exclusive : Option ExclusiveBound) :
    splitBound (respelledBound inclusive exclusive).1 (respelledBound inclusive exclusive).2 =
      splitBound inclusive exclusive := by
  rcases exclusive with _ | (_ | _) | _
  · rfl
  · rfl
  · cases inclusive <;> rfl
  · rfl

/-- Numbers for exclusive bounds do not change the shape of a type. -/
theorem ofType_withNumericBounds (k : Keywords Shape) :
    ofType k.withNumericBounds = ofType k := by
  have hnumber : ofNumber k.withNumericBounds = ofNumber k := by
    funext integer
    simp only [ofNumber, Keywords.withNumericBounds, splitBound_respelled]
  funext name
  cases name with
  | number | integer => exact congrFun hnumber _
  | _ => rfl

/-- So they do not change any shape. -/
theorem ofKeywords_withNumericBounds (k : Keywords Shape) :
    ofKeywords k.withNumericBounds = ofKeywords k := by
  have hbase : base k.withNumericBounds = base k := by
    unfold base ofTypes
    rw [ofType_withNumericBounds]
    rfl
  rw [ofKeywords, ofKeywords, hbase]
  rfl

/-- Where the type decides, the shape is that of the type. -/
theorem base_of_decidedByType {k : Keywords Shape} (h : k.decidedByType = true) :
    base k = match k.type with
      | some (.one name) => ofType k name
      | some (.several names) => ofTypes k names
      | none => inferred k := by
  simp only [Keywords.decidedByType, Bool.and_eq_true, List.isEmpty_iff, Option.isNone_iff_eq_none]
    at h
  obtain ⟨⟨⟨hallOf, honeOf⟩, hanyOf⟩, hconst⟩ := h
  simp only [base, hallOf, honeOf, hanyOf, hconst, List.isEmpty_nil, Bool.not_true]
  rfl

/-- The flag wraps the shape of a type. -/
theorem ofKeywords_of_base_eq_ofType {k : Keywords Shape} {name : TypeName}
    (hbase : base k = ofType k name) (hnullable : k.nullable = some true)
    (hnamed : name ∈ TypeName.named) : ofKeywords k = .nullable (ofType k name) := by
  rw [ofKeywords, hbase, hnullable]
  cases name with
  | null | other => exact absurd hnamed (by decide)
  | _ => rfl

/-- The name `null` beside a type wraps its shape. -/
theorem ofTypes_pair_null (k : Keywords Shape) {name : TypeName} (hnamed : name ∈ TypeName.named) :
    ofTypes k [name, .null] = .nullable (ofType k name) := by
  cases name with
  | null | other => exact absurd hnamed (by decide)
  | _ => rfl

/-- The flag wraps the shape of the type, and so does `null` in the list of types. -/
theorem ofKeywords_withNullInTypes (k : Keywords Shape) :
    ofKeywords k.withNullInTypes = ofKeywords k := by
  rw [Keywords.withNullInTypes]
  split
  · rename_i name hflagged
    obtain ⟨htype, hnullable, hdecided, hnamed⟩ := Keywords.flaggedType?_eq_some_iff.mp hflagged
    have hold : base k = ofType k name := by rw [base_of_decidedByType hdecided, htype]
    have hsame : ofType (k.orNull name) name = ofType k name := by cases name <;> rfl
    have hnew : base (k.orNull name) = .nullable (ofType k name) := by
      rw [base_of_decidedByType (k := k.orNull name) hdecided, ← hsame]
      exact ofTypes_pair_null (k.orNull name) hnamed
    rw [ofKeywords_of_base_eq_ofType hold hnullable hnamed, ofKeywords, hnew]
  · rfl

/-- Respelling keywords does not change their shape. -/
theorem ofKeywords_respelled (k : Keywords Shape) : ofKeywords k.respelled = ofKeywords k := by
  rw [Keywords.respelled, ofKeywords_withNullInTypes, ofKeywords_withNumericBounds]

/-- Respelling a schema does not change its shape. -/
theorem ofSchema_respelled (s : Schema) : ofSchema s.respelled = ofSchema s := by
  induction s using Schema.induction with
  | reference target => rfl
  | inline k ih =>
      rw [Schema.respelled_inline, ofSchema_inline, ofSchema_inline, ← Keywords.respelled_map,
        ofKeywords_respelled, Keywords.map_map]
      exact congrArg ofKeywords (Keywords.map_congr ih)

end Shape

/-! ### Documents -/

/-- Nor does it change a component. -/
theorem Component.ofSchema_respelled (name : String) (s : Schema) :
    ofSchema name s.respelled = ofSchema name s := by
  cases s with
  | reference target => rfl
  | inline k =>
      have hdescription : (k.map Schema.respelled).respelled.description = k.description :=
        Keywords.description_respelled _
      have hshape := Shape.ofSchema_respelled (.inline k)
      rw [Schema.respelled_inline] at hshape ⊢
      simp only [ofSchema, hdescription, hshape]

/-- **Spellings.** To write a schema in the newer spelling at every level leaves no flag of the
older one and changes nothing of its shape. To write all schemas of a document so changes nothing of
its interface, from which all is generated. -/
theorem Api.ofDocument_respelled :
    (∀ s : Schema, s.respelled.Everywhere Keywords.InNewerSpelling) ∧
    (∀ s : Schema, Shape.ofSchema s.respelled = Shape.ofSchema s) ∧
    ∀ (naming : Naming) (d : Document),
      Api.ofDocument naming (d.mapSchemas .respelled) = Api.ofDocument naming d :=
  ⟨Schema.everywhere_respelled, Shape.ofSchema_respelled,
    fun naming d => Api.ofDocument_mapSchemas Component.ofSchema_respelled naming d⟩

end OpenApiZod

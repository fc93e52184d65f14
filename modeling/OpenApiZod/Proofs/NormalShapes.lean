import OpenApiZod.Proofs.Conversion
import OpenApiZod.Proofs.InterfaceShapes
import OpenApiZod.Proofs.ShapeTrees

/-!
# Shapes in normal form

The shape of a schema says nothing twice and nothing empty. A nullable in it is around a shape that
does not take `null` on its own account, a composition has members and a literal has values
(`Shape.everywhere_isNormal`). A union of types has two of them at least
(`Shape.two_le_of_several`).

The validator of an empty composition and that of an empty list of values would accept everything.
`Scope.convertElse` is a conversion that puts another validator there. With the validator that
accepts everything it is the conversion itself, and for the shapes of a document it makes no
difference which validator it is given (`Scope.convertElse_eq`): no document has an empty
composition or an empty list of values that a conversion meets.
-/

namespace OpenApiZod

/-! ### Normal forms -/

namespace Shape

/-- A shape in normal form, its parts apart. -/
def IsNormal : Shape → Prop
  | .composition _ members => members ≠ []
  | .literal values => values ≠ []
  | .nullable inner => inner.TakesNull
  | _ => True

/-- The shape of a single type is in normal form. -/
theorem isNormal_ofType (k : Keywords Shape) (name : TypeName) : (ofType k name).IsNormal := by
  cases name <;> trivial

/-- The shape of a schema is in normal form at every depth. -/
theorem everywhere_isNormal (s : Schema) : (ofSchema s).Everywhere IsNormal :=
  everywhere_ofSchema (Q := fun _ => True) (fun _ => trivial)
    (fun k _ =>
      { ofType := isNormal_ofType (k.map ofSchema)
        composition := fun _ _ hmembers => hmembers
        literal := fun _ hvalues => hvalues
        nullable := fun _ htakes => htakes })
    (Schema.everywhere_of_forall (fun _ => trivial) s)

/-! ### Unions of types -/

/-- The shape without a nullable around it. -/
def unwrapped : Shape → Shape
  | .nullable inner => inner
  | s => s

/-- The shape of a single type has no nullable around it. -/
theorem unwrapped_ofType (k : Keywords Shape) (name : TypeName) :
    (ofType k name).unwrapped = ofType k name := by
  cases name <;> rfl

/-- The shape of a single type is no composition. -/
theorem ofType_ne_composition (k : Keywords Shape) (name : TypeName) (kind : Composition)
    (members : List Shape) : ofType k name ≠ .composition kind members := by
  cases name <;> exact nofun

/-- The flag for nullable types wraps what it does not find wrapped. -/
theorem unwrapped_ofKeywords (k : Keywords Shape) :
    (ofKeywords k).unwrapped = (base k).unwrapped := by
  rw [ofKeywords]
  split
  · rename_i hbase
    rw [hbase]
  · rename_i hbase
    rw [hbase]
  · rename_i hbase
    rw [hbase]
  · rename_i hnullable _
    split
    · cases hbase : base k with
      | nullable inner => exact absurd hbase (hnullable inner)
      | _ => rfl
    · rfl

/-- A list of types makes a union where two of them at least are left beside `null`. -/
theorem two_le_of_ofTypes {k : Keywords Shape} {names : List TypeName} {kind : Composition}
    {members : List Shape} (h : (ofTypes k names).unwrapped = .composition kind members) :
    kind = .anyOf ∧ 2 ≤ members.length := by
  rw [ofTypes] at h
  generalize names.filter (· ≠ .null) = others, decide (.null ∈ names) = hasNull at h
  rcases others with _ | ⟨one, _ | ⟨two, rest⟩⟩
  · cases hasNull with
    | true => cases h
    | false => cases h
  · have hone := ofType_ne_composition k one kind members
    cases hasNull with
    | true => exact absurd h hone
    | false => exact absurd ((unwrapped_ofType k one).symm.trans h) hone
  · have hunion : composition .anyOf ((one :: two :: rest).map (ofType k)) =
        .composition kind members := by
      cases hasNull with
      | true => exact h
      | false => exact h
    obtain ⟨rfl, rfl⟩ := Shape.composition.inj hunion
    exact ⟨rfl, Nat.le_add_left 2 _⟩

/-- A composition that a list of types makes has two members at least. -/
theorem two_le_of_several {k : Keywords Schema} {names : List TypeName}
    (hdecided : k.decidedByType = true) (htype : k.type = some (.several names))
    {kind : Composition} {members : List Shape}
    (h : (ofSchema (.inline k)).unwrapped = .composition kind members) :
    kind = .anyOf ∧ 2 ≤ members.length := by
  have hdecided' : (k.map ofSchema).decidedByType = true := by
    simpa only [Keywords.decidedByType, Keywords.map, List.isEmpty_map] using hdecided
  have htype' : (k.map ofSchema).type = some (.several names) := htype
  rw [ofSchema_inline, unwrapped_ofKeywords, base_of_decidedByType hdecided', htype'] at h
  exact two_le_of_ofTypes h

end Shape

/-! ### Conversions with another fallback -/

namespace Validator

section Else

variable (fallback : Validator)

/-- The union of validators, with `fallback` for that of none. -/
def unionElse : List Validator → Validator
  | [] => fallback
  | v :: vs => unionOf (v :: vs)

/-- The validator of all members at once, with `fallback` where there are none. -/
def intersectionElse : List Validator → Validator
  | [] => fallback
  | v :: vs => intersectionOf (v :: vs)

/-- The validator of one of several values, with `fallback` where there are none. -/
def ofLiteralsElse (values : List Json) : Validator :=
  unionElse fallback (values.map ofLiteral)

/-- The validator of one of several values where texts are expected. -/
def ofEnumElse (values : List Json) : Validator :=
  match values.mapM textOf? with
  | some texts => .enum texts
  | none => ofLiteralsElse fallback values

/-- The validator of a text. -/
def ofStringElse (rules : StringRules) : Validator :=
  if rules.enum.isEmpty then ofString rules else ofEnumElse fallback rules.enum

/-- The validator of a number. -/
def ofNumberElse (rules : NumberRules) : Validator :=
  if rules.enum.isEmpty then ofNumber rules else ofLiteralsElse fallback rules.enum

variable (onReference : String → Validator)

mutual

/-- The validator of a shape, with `fallback` for compositions without members and for literals
without values. -/
def ofShapeElse : Shape → Validator
  | .reference target => onReference target
  | .composition .allOf members => intersectionElse fallback (ofMembersElse members)
  | .composition .oneOf members => unionElse fallback (ofMembersElse members)
  | .composition .anyOf members => unionElse fallback (ofMembersElse members)
  | .string rules => ofStringElse fallback rules
  | .number rules => ofNumberElse fallback rules
  | .boolean => .boolean
  | .null => .null
  | .literal values => ofLiteralsElse fallback values
  | .array none minItems maxItems => .array .any minItems maxItems
  | .array (some items) minItems maxItems => .array (ofShapeElse items) minItems maxItems
  | .object [] _ extra =>
    match ofExtraElse extra with
    | .typed values => .record (some values)
    | _ => .record none
  | .object (property :: properties) required extra =>
    .object (ofPropertiesElse required (property :: properties)) (ofExtraElse extra)
  | .nullable inner => .nullable (ofShapeElse inner)
  | .unknown => .any

/-- The validators of members. -/
def ofMembersElse : List Shape → List Validator
  | [] => []
  | s :: rest => ofShapeElse s :: ofMembersElse rest

/-- The validators of properties. -/
def ofPropertiesElse (required : List String) :
    List (String × Shape) → List (String × Validator)
  | [] => []
  | (name, s) :: rest =>
    (name, ofProperty required name (ofShapeElse s)) :: ofPropertiesElse required rest

/-- The treatment of properties that are not listed. -/
def ofExtraElse : Extra Shape → Extra Validator
  | .unspecified => .unspecified
  | .forbidden => .forbidden
  | .unrestricted => .unrestricted
  | .typed values => .typed (ofShapeElse values)

end

end Else

section NoElse

variable {fallback : Validator}

/-- The fallback makes no difference for a union that has members. -/
theorem unionElse_eq {vs : List Validator} (h : fallback = .any ∨ vs ≠ []) :
    unionElse fallback vs = unionOf vs := by
  cases vs with
  | nil => exact h.resolve_right (absurd rfl)
  | cons v vs => rfl

/-- Nor does it for an intersection that has members. -/
theorem intersectionElse_eq {vs : List Validator} (h : fallback = .any ∨ vs ≠ []) :
    intersectionElse fallback vs = intersectionOf vs := by
  cases vs with
  | nil => exact h.resolve_right (absurd rfl)
  | cons v vs => rfl

/-- Nor does it for literals where there are values. -/
theorem ofLiteralsElse_eq {values : List Json} (h : fallback = .any ∨ values ≠ []) :
    ofLiteralsElse fallback values = ofLiterals values :=
  unionElse_eq (h.imp_right fun hvalues => by simpa using hvalues)

/-- Only where there are values are they looked at. -/
theorem ofStringElse_eq (rules : StringRules) : ofStringElse fallback rules = ofString rules := by
  rw [ofStringElse]
  split
  · rfl
  · rename_i henum
    have hliterals : ofLiteralsElse fallback rules.enum = ofLiterals rules.enum :=
      ofLiteralsElse_eq (Or.inr (by simpa using henum))
    rw [ofString, if_neg henum, ofEnumElse, ofEnum]
    cases htexts : rules.enum.mapM textOf? with
    | none => exact hliterals
    | some texts => rfl

/-- For a number, too, values are looked at only where there are some. -/
theorem ofNumberElse_eq (rules : NumberRules) : ofNumberElse fallback rules = ofNumber rules := by
  rw [ofNumberElse]
  split
  · rfl
  · rename_i henum
    rw [ofNumber, if_neg henum, ofLiteralsElse_eq (Or.inr (by simpa using henum))]

variable {onReference : String → Validator}

/-- Every member has a validator, so there are none only without members. -/
theorem ofMembersElse_eq_nil_iff {members : List Shape} :
    ofMembersElse fallback onReference members = [] ↔ members = [] := by
  cases members <;> simp [ofMembersElse]

/-- A shape for which the fallback makes no difference: it is the one of the conversion, or the
shape is in normal form everywhere. -/
def Spares (fallback : Validator) (s : Shape) : Prop :=
  fallback = .any ∨ s.Everywhere Shape.IsNormal

/-- The fallback makes no difference for the parts either. -/
theorem Spares.part {s part : Shape} (h : Spares fallback s) (hpart : part ∈ s.parts) :
    Spares fallback part :=
  h.imp_right fun heverywhere => heverywhere.part hpart

/-- The members of a composition in normal form have validators. -/
theorem Spares.members {kind : Composition} {members : List Shape}
    (h : Spares fallback (.composition kind members)) :
    fallback = .any ∨ ofMembersElse fallback onReference members ≠ [] :=
  h.imp_right fun heverywhere hnil => heverywhere.own (ofMembersElse_eq_nil_iff.mp hnil)

mutual

/-- The fallback makes no difference for shapes in normal form. -/
theorem ofShapeElse_eq : ∀ s : Shape, Spares fallback s →
    ofShapeElse fallback onReference s = ofShape onReference s
  | .reference _, _ => rfl
  | .composition .allOf members, h => by
      rw [ofShapeElse, ofShape, intersectionElse_eq h.members,
        ofMembersElse_eq members fun part hpart => h.part hpart]
  | .composition .oneOf members, h => by
      rw [ofShapeElse, unionElse_eq h.members,
        ofMembersElse_eq members fun part hpart => h.part hpart]
      rfl
  | .composition .anyOf members, h => by
      rw [ofShapeElse, unionElse_eq h.members,
        ofMembersElse_eq members fun part hpart => h.part hpart]
      rfl
  | .string rules, _ => ofStringElse_eq rules
  | .number rules, _ => ofNumberElse_eq rules
  | .boolean, _ => rfl
  | .null, _ => rfl
  | .literal _, h => ofLiteralsElse_eq (h.imp_right Shape.Everywhere.own)
  | .array none _ _, _ => rfl
  | .array (some items) _ _, h => by
      rw [ofShapeElse, ofShape, ofItems,
        ofShapeElse_eq items (h.part (List.mem_singleton_self items))]
  | .object [] required extra, h => by
      have hextra := ofExtraElse_eq extra fun part hpart =>
        h.part (List.mem_append_right _ hpart)
      rw [ofShapeElse, ofShape]
      cases hvalues : ofExtra onReference extra <;> simp only [hextra, hvalues]
  | .object (property :: properties) required extra, h => by
      rw [ofShapeElse, ofShape,
        ofPropertiesElse_eq required (property :: properties) fun part hpart =>
          h.part (List.mem_append_left _ hpart),
        ofExtraElse_eq extra fun part hpart => h.part (List.mem_append_right _ hpart)]
  | .nullable inner, h => by
      rw [ofShapeElse, ofShape, ofShapeElse_eq inner (h.part (List.mem_singleton_self inner))]
  | .unknown, _ => rfl

/-- It makes none for members in normal form. -/
theorem ofMembersElse_eq : ∀ members : List Shape, (∀ part ∈ members, Spares fallback part) →
    ofMembersElse fallback onReference members = ofMembers onReference members
  | [], _ => rfl
  | s :: rest, h => by
      rw [List.forall_mem_cons] at h
      rw [ofMembersElse, ofMembers, ofShapeElse_eq s h.1, ofMembersElse_eq rest h.2]

/-- It makes none for properties in normal form. -/
theorem ofPropertiesElse_eq (required : List String) : ∀ properties : List (String × Shape),
    (∀ part ∈ properties.map Prod.snd, Spares fallback part) →
      ofPropertiesElse fallback onReference required properties =
        ofProperties onReference required properties
  | [], _ => rfl
  | (name, s) :: rest, h => by
      rw [List.map_cons, List.forall_mem_cons] at h
      rw [ofPropertiesElse, ofProperties, ofShapeElse_eq s h.1,
        ofPropertiesElse_eq required rest h.2]

/-- It makes none for properties that are not listed. -/
theorem ofExtraElse_eq : ∀ extra : Extra Shape,
    (∀ part ∈ extra.part?.toList, Spares fallback part) →
      ofExtraElse fallback onReference extra = ofExtra onReference extra
  | .unspecified, _ => rfl
  | .forbidden, _ => rfl
  | .unrestricted, _ => rfl
  | .typed values, h => by
      rw [ofExtraElse, ofExtra, ofShapeElse_eq values (h values (List.mem_singleton_self values))]

end

end NoElse

end Validator

namespace Scope

/-- The validator of a shape, with `fallback` for compositions without members and for literals
without values. -/
def convertElse (fallback : Validator) (scope : Scope) (path : List String) (owner : String)
    (inline : Bool) (shape : Shape) : Validator :=
  shape |> .ofShapeElse fallback fun target =>
    if _hpath : target ∈ path then .deferred target
    else if !inline && scope.cycles.any (·.shared owner target) then .deferred target
    else if inline then
      match _h : scope.components.get? target with
      | some component =>
        scope.convertElse fallback (path ++ [target]) target true component.shape
      | none => .reference target
    else .reference target
termination_by remaining scope.components.keys path
decreasing_by
  exact remaining_append_lt (Table.mem_keys_of_get? _h) _hpath

/-- The fallback makes no difference where all components are in normal form, and the shape is. -/
theorem convertElse_eq {fallback : Validator} {scope : Scope}
    (hcomponents : ∀ c ∈ scope.components.values, Validator.Spares fallback c.shape)
    (path : List String) (owner : String) (inline : Bool) {shape : Shape}
    (hshape : Validator.Spares fallback shape) :
    scope.convertElse fallback path owner inline shape =
      scope.convert path owner inline shape := by
  rw [convertElse, Validator.ofShapeElse_eq shape hshape, convert_eq_ofShape]
  refine Validator.ofShape_congr shape fun target _ => ?_
  split
  · rename_i hpath
    exact (convert_reference_deferred scope owner (Or.inr hpath)).symm
  split
  · rename_i hcycle
    exact (convert_reference_deferred scope owner (Or.inl hcycle)).symm
  rename_i hpath hcycle
  cases inline with
  | false =>
      exact (convert_reference_bare scope owner hpath (Bool.eq_false_iff.mpr hcycle) rfl).symm
  | true =>
      rw [if_pos rfl]
      split
      · rename_i component hcomponent
        have hspares : Validator.Spares fallback component.shape :=
          hcomponents component (Table.mem_values_iff.mpr ⟨target, hcomponent⟩)
        rw [convert_reference_component scope owner hpath hcomponent]
        exact convertElse_eq hcomponents (path ++ [target]) target true hspares
      · rename_i hunknown
        exact (convert_reference_unknown scope owner hpath hunknown).symm
termination_by remaining scope.components.keys path
decreasing_by
  exact remaining_append_lt (Table.mem_keys_of_get? ‹_›) ‹_›

end Scope

/-! ### Documents -/

/-- **Normal forms.** At every depth of the shape of a schema, a nullable is around neither `null`
nor a nullable nor a reference, a composition has a member and a literal has a value; a composition
that a list of types makes has two members at least. So it makes no difference what a conversion
does with a composition without members or a literal without values: it meets none in a document. -/
theorem Scope.fallback_unreachable :
    (∀ s : Schema, (Shape.ofSchema s).Everywhere Shape.IsNormal) ∧
    (∀ (k : Keywords Schema) (names : List TypeName), k.decidedByType = true →
      k.type = some (.several names) → ∀ kind members,
        (Shape.ofSchema (.inline k)).unwrapped = .composition kind members →
          kind = .anyOf ∧ 2 ≤ members.length) ∧
    (∀ (scope : Scope) path owner inline shape,
      scope.convertElse .any path owner inline shape = scope.convert path owner inline shape) ∧
    ∀ (naming : Naming) (d : Document) (checked : Checked Api),
      Api.ofDocument naming d = .ok checked → ∀ shape ∈ checked.value.shapes,
        ∀ fallback cycles path owner inline,
          Scope.convertElse fallback ⟨checked.value.components, cycles⟩ path owner inline shape =
            Scope.convert ⟨checked.value.components, cycles⟩ path owner inline shape := by
  refine ⟨Shape.everywhere_isNormal, fun k names hdecided htype kind members h =>
    Shape.two_le_of_several hdecided htype h, fun scope path owner inline shape =>
      convertElse_eq (fun _ _ => Or.inl rfl) path owner inline (Or.inl rfl), ?_⟩
  intro naming d checked h shape hshape fallback cycles path owner inline
  have hnormal : ∀ shape ∈ checked.value.shapes, Validator.Spares fallback shape := by
    intro shape hshape
    obtain ⟨s, -, rfl⟩ := Api.exists_schema_of_mem_shapes h shape hshape
    exact Or.inr (Shape.everywhere_isNormal s)
  have hcomponents : ∀ c ∈ checked.value.components.values, Validator.Spares fallback c.shape :=
    fun c hc => hnormal c.shape (List.mem_append_left _ (List.mem_map_of_mem hc))
  exact convertElse_eq hcomponents path owner inline (hnormal shape hshape)

/-- A component with a list of types: `null` in it makes a union of the two others nullable, and the
union is converted without the fallback. -/
theorem Scope.fallback_unreachable_types :
    let pet : Keywords Schema :=
      { Keywords.blank with type := some (.several [.string, .null, .integer]) }
    let d : Document := ⟨"3.1.0", ⟨"Pets", "1"⟩, none,
      some ⟨.ofList [("Pet", .inline pet)], .empty, .empty⟩⟩
    ∃ members, (Shape.ofSchema (.inline pet)).unwrapped = .composition .anyOf members ∧
      2 ≤ members.length ∧
      ∃ checked, Api.ofDocument .default d = .ok checked ∧
        Shape.ofSchema (.inline pet) ∈ checked.value.shapes ∧ ∀ fallback,
          Scope.convertElse fallback ⟨checked.value.components, none⟩ [] "" true
              (Shape.ofSchema (.inline pet)) =
            Scope.convert ⟨checked.value.components, none⟩ [] "" true
              (Shape.ofSchema (.inline pet)) := by
  intro pet d
  obtain ⟨-, htypes, -, hdocument⟩ := Scope.fallback_unreachable
  have hmem : ∃ checked, Api.ofDocument .default d = .ok checked ∧
      Shape.ofSchema (.inline pet) ∈ checked.value.shapes :=
    ⟨_, rfl, List.mem_singleton_self _⟩
  obtain ⟨checked, hchecked, hshape⟩ := hmem
  exact ⟨_, rfl, (htypes pet _ rfl rfl _ _ rfl).2, checked, hchecked, hshape, fun fallback =>
    hdocument .default d checked hchecked _ hshape fallback none [] "" true⟩

end OpenApiZod

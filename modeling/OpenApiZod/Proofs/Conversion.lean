import OpenApiZod.Conversion
import OpenApiZod.Proofs.CycleGroups

/-!
# What conversion does with references

The validator of a shape uses what the references of the shape become, in their order
(`uses_ofShape`), and depends on nothing else that references could become (`ofShape_congr`). What
holds of whatever is gathered from a validator part by part is stated once (`Gathers`).

A reference is deferred, expanded or written (`convert_reference_deferred`,
`convert_reference_component`, `convert_reference_bare`). A conversion that is not inline defers it
if its target is being expanded or shares a cycle with the owner, and writes the target's binding
otherwise (`convert_named`). So it uses each written reference once, in the order in which the
references are written (`uses_convert_named`). What an inline conversion uses comes from the
references of the shape, or from what was put in their places (`mem_uses_convert_inline_iff`).
-/

open Relation

namespace OpenApiZod

/-! ### Uses -/

namespace Validator

/-- What is gathered from a validator and from its members. A value contributes nothing, and a
validator that is put together contributes what its parts do, in their order. -/
structure Gathers {α : Type} (gather : Validator → List α) (gatherAll : List Validator → List α) :
    Prop where
  nil : gatherAll [] = []
  cons (v : Validator) (vs : List Validator) : gatherAll (v :: vs) = gather v ++ gatherAll vs
  any : gather .any = []
  null : gather .null = []
  literal (value : Json) : gather (.literal value) = []
  enum (values : List String) : gather (.enum values) = []
  number (checks : List NumberCheck) : gather (.number checks) = []
  union (vs : List Validator) : gather (.union vs) = gatherAll vs
  intersection (left right : Validator) :
    gather (.intersection left right) = gather left ++ gather right
  optional (inner : Validator) : gather (.optional inner) = gather inner

namespace Gathers

variable {α : Type} {gather : Validator → List α} {gatherAll : List Validator → List α}

/-- A union contributes what its members do, also if there is only one. -/
theorem gather_unionOf (h : Gathers gather gatherAll) (vs : List Validator) :
    gather (unionOf vs) = gatherAll vs := by
  match vs with
  | [] => rw [unionOf, h.any, h.nil]
  | [v] => rw [unionOf, h.cons, h.nil, List.append_nil]
  | v :: w :: vs => exact h.union (v :: w :: vs)

/-- So do intersections that are built one by one. -/
theorem gather_foldl_intersection (h : Gathers gather gatherAll) (v : Validator)
    (vs : List Validator) : gather (vs.foldl .intersection v) = gather v ++ gatherAll vs := by
  induction vs generalizing v with
  | nil => rw [List.foldl_nil, h.nil, List.append_nil]
  | cons w vs ih => rw [List.foldl_cons, ih, h.intersection, h.cons, List.append_assoc]

/-- An intersection contributes what its members do. -/
theorem gather_intersectionOf (h : Gathers gather gatherAll) (vs : List Validator) :
    gather (intersectionOf vs) = gatherAll vs := by
  match vs with
  | [] => rw [intersectionOf, h.any, h.nil]
  | v :: vs => rw [intersectionOf, h.gather_foldl_intersection, h.cons]

/-- A literal contributes nothing. -/
theorem gather_ofLiteral (h : Gathers gather gatherAll) (value : Json) :
    gather (ofLiteral value) = [] := by
  unfold ofLiteral
  split
  · exact h.null
  · exact h.any
  · exact h.any
  · exact h.literal value

/-- Nor do several. -/
theorem gather_ofLiterals (h : Gathers gather gatherAll) (values : List Json) :
    gather (ofLiterals values) = [] := by
  rw [ofLiterals, h.gather_unionOf]
  induction values with
  | nil => exact h.nil
  | cons value values ih =>
      rw [List.map_cons, h.cons, h.gather_ofLiteral, ih, List.append_nil]

/-- Nor does a list of values. -/
theorem gather_ofEnum (h : Gathers gather gatherAll) (values : List Json) :
    gather (ofEnum values) = [] := by
  rw [ofEnum]
  split
  · exact h.enum _
  · exact h.gather_ofLiterals values

/-- Nor does a number, whatever its rules. -/
theorem gather_ofNumber (h : Gathers gather gatherAll) (rules : NumberRules) :
    gather (ofNumber rules) = [] := by
  rw [ofNumber]
  split
  · exact h.number _
  · exact h.gather_ofLiterals rules.enum

/-- A property contributes what its validator does, optional or not. -/
theorem gather_ofProperty (h : Gathers gather gatherAll) (required : List String) (name : String)
    (v : Validator) : gather (ofProperty required name v) = gather v := by
  rw [ofProperty]
  split
  · rfl
  · exact h.optional v

end Gathers

/-- Uses are gathered in this way. -/
theorem gathers_uses : Gathers uses usesOfMembers where
  nil := rfl
  cons _ _ := rfl
  any := rfl
  null := rfl
  literal _ := rfl
  enum _ := rfl
  number _ := rfl
  union _ := rfl
  intersection _ _ := rfl
  optional _ := rfl

/-- A string uses no other shape. -/
theorem uses_ofString (rules : StringRules) : uses (ofString rules) = [] := by
  rw [ofString]
  split
  · rfl
  · exact gathers_uses.gather_ofEnum rules.enum

/-- The references in the treatment of properties that are not listed. -/
def referencesOfExtra : Extra Shape → List String
  | .typed values => values.references
  | _ => []

/-- An object refers to what its properties and its other values refer to. -/
theorem references_object (properties : List (String × Shape)) (required : List String)
    (extra : Extra Shape) :
    (Shape.object properties required extra).references =
      Shape.referencesOfProperties properties ++ referencesOfExtra extra := by
  cases extra <;> rfl

section OfShape

variable (f : String → Validator)

mutual

/-- The validator of a shape uses what its references become, in their order. -/
theorem uses_ofShape : ∀ s : Shape,
    uses (ofShape f s) = s.references.flatMap fun target => uses (f target)
  | .reference target => by
      rw [ofShape, Shape.references, List.flatMap_singleton]
  | .composition .allOf members => by
      rw [ofShape, gathers_uses.gather_intersectionOf, Shape.references]
      exact uses_ofMembers members
  | .composition .oneOf members => (gathers_uses.gather_unionOf _).trans (uses_ofMembers members)
  | .composition .anyOf members => (gathers_uses.gather_unionOf _).trans (uses_ofMembers members)
  | .string rules => uses_ofString rules
  | .number rules => gathers_uses.gather_ofNumber rules
  | .boolean => by rfl
  | .null => by rfl
  | .literal values => gathers_uses.gather_ofLiterals values
  | .array none minItems maxItems => by rfl
  | .array (some items) minItems maxItems => by
      rw [ofShape, uses, ofItems, Shape.references]
      exact uses_ofShape items
  | .object [] required extra => by
      rw [references_object, Shape.referencesOfProperties, List.nil_append,
        ← uses_ofExtra extra, ofShape]
      cases extra <;> rfl
  | .object (property :: properties) required extra => by
      rw [references_object, List.flatMap_append, ofShape, uses,
        uses_ofProperties required (property :: properties), uses_ofExtra extra]
  | .nullable inner => by
      rw [ofShape, uses, Shape.references]
      exact uses_ofShape inner
  | .unknown => by rfl

/-- The validators of members use what the members refer to. -/
theorem uses_ofMembers : ∀ members : List Shape,
    usesOfMembers (ofMembers f members) =
      (Shape.referencesOfMembers members).flatMap fun target => uses (f target)
  | [] => rfl
  | s :: rest => by
      rw [ofMembers, usesOfMembers, Shape.referencesOfMembers, List.flatMap_append,
        uses_ofShape s, uses_ofMembers rest]

/-- Those of properties do. -/
theorem uses_ofProperties (required : List String) : ∀ properties : List (String × Shape),
    usesOfFields (ofProperties f required properties) =
      (Shape.referencesOfProperties properties).flatMap fun target => uses (f target)
  | [] => rfl
  | (name, s) :: rest => by
      rw [ofProperties, usesOfFields, gathers_uses.gather_ofProperty, Shape.referencesOfProperties,
        List.flatMap_append, uses_ofShape s, uses_ofProperties required rest]

/-- So does the treatment of other properties. -/
theorem uses_ofExtra : ∀ extra : Extra Shape,
    usesOfExtra (ofExtra f extra) =
      (referencesOfExtra extra).flatMap fun target => uses (f target)
  | .unspecified => rfl
  | .forbidden => rfl
  | .unrestricted => rfl
  | .typed values => by
      rw [ofExtra, usesOfExtra, referencesOfExtra]
      exact uses_ofShape values

end

end OfShape

section Congr

variable {f f' : String → Validator}

mutual

/-- The validator of a shape depends on what its own references become, and on nothing else. -/
theorem ofShape_congr :
    ∀ s : Shape, (∀ target ∈ s.references, f target = f' target) → ofShape f s = ofShape f' s
  | .reference target, h => by
      rw [ofShape, ofShape]
      exact h target (by rw [Shape.references]; exact List.mem_singleton_self target)
  | .composition .allOf members, h => by
      rw [ofShape, ofShape, ofMembers_congr members h]
  | .composition .oneOf members, h => congrArg unionOf (ofMembers_congr members h)
  | .composition .anyOf members, h => congrArg unionOf (ofMembers_congr members h)
  | .string _, _ => rfl
  | .number _, _ => rfl
  | .boolean, _ => rfl
  | .null, _ => rfl
  | .literal _, _ => rfl
  | .array none _ _, _ => rfl
  | .array (some items) minItems maxItems, h => by
      rw [ofShape, ofShape, ofItems, ofItems, ofShape_congr items h]
  | .object [] required extra, h => by
      rw [references_object, Shape.referencesOfProperties, List.nil_append] at h
      rw [ofShape, ofShape, ofExtra_congr extra h]
  | .object (property :: properties) required extra, h => by
      rw [references_object, List.forall_mem_append] at h
      rw [ofShape, ofShape, ofProperties_congr required (property :: properties) h.1,
        ofExtra_congr extra h.2]
  | .nullable inner, h => by
      rw [ofShape, ofShape, ofShape_congr inner h]
  | .unknown, _ => rfl

/-- The validators of members depend on what stands for their references alone. -/
theorem ofMembers_congr : ∀ members : List Shape,
    (∀ target ∈ Shape.referencesOfMembers members, f target = f' target) →
      ofMembers f members = ofMembers f' members
  | [], _ => rfl
  | s :: rest, h => by
      rw [Shape.referencesOfMembers, List.forall_mem_append] at h
      rw [ofMembers, ofMembers, ofShape_congr s h.1, ofMembers_congr rest h.2]

/-- So do those of properties. -/
theorem ofProperties_congr (required : List String) : ∀ properties : List (String × Shape),
    (∀ target ∈ Shape.referencesOfProperties properties, f target = f' target) →
      ofProperties f required properties = ofProperties f' required properties
  | [], _ => rfl
  | (name, s) :: rest, h => by
      rw [Shape.referencesOfProperties, List.forall_mem_append] at h
      rw [ofProperties, ofProperties, ofShape_congr s h.1, ofProperties_congr required rest h.2]

/-- So does the treatment of other properties. -/
theorem ofExtra_congr : ∀ extra : Extra Shape,
    (∀ target ∈ referencesOfExtra extra, f target = f' target) →
      ofExtra f extra = ofExtra f' extra
  | .unspecified, _ => rfl
  | .forbidden, _ => rfl
  | .unrestricted, _ => rfl
  | .typed values, h => by
      rw [ofExtra, ofExtra, ofShape_congr values h]

end

end Congr

end Validator

/-- The shape of the component `owner` refers to `target`. -/
def Refers (components : ComponentTable) (owner target : String) : Prop :=
  ∃ c, components.get? owner = some c ∧ target ∈ c.shape.references

/-- What refers to something is a component. -/
theorem Refers.mem_keys {components : ComponentTable} {owner target : String}
    (h : Refers components owner target) : owner ∈ components.keys := by
  obtain ⟨c, hc, -⟩ := h
  exact Table.mem_keys_of_get? hc

/-- A chain that leads to a component leads, with the component on it, to all that it refers
to. -/
theorem leads_to_target {components : ComponentTable} {chain : List String}
    {name target x : String} (hchain : ∀ x ∈ chain, TransGen (Refers components) x name)
    (hx : x ∈ chain ++ [name]) (hrefers : Refers components name target) :
    TransGen (Refers components) x target := by
  rcases List.mem_append.mp hx with hx | hx
  · exact (hchain x hx).tail hrefers
  · rw [List.mem_singleton.mp hx]
    exact TransGen.single hrefers

/-! ### What becomes of a reference -/

namespace Scope

section Reference

variable (scope : Scope) {path : List String} (owner : String) {inline : Bool} {target : String}

/-- A conversion converts the references of a shape where they stand. -/
theorem convert_eq_ofShape (path : List String) (inline : Bool) (shape : Shape) :
    scope.convert path owner inline shape =
      .ofShape (fun target => scope.convert path owner inline (.reference target)) shape := by
  rw [convert]
  refine Validator.ofShape_congr shape fun target _ => ?_
  rw [convert, Validator.ofShape]

/-- References back to the path, or inside a cycle, are deferred. -/
theorem convert_reference_deferred
    (h : (!inline && scope.cycles.any (·.shared owner target)) = true ∨ target ∈ path) :
    scope.convert path owner inline (.reference target) = .deferred target := by
  rw [convert, Validator.ofShape]
  by_cases hpath : target ∈ path
  · rw [dif_pos hpath]
  · rw [dif_neg hpath, if_pos (h.resolve_right hpath)]

/-- Inline a component is put in the place of a reference to it. -/
theorem convert_reference_component {component : Component} (hpath : target ∉ path)
    (hcomponent : scope.components.get? target = some component) :
    scope.convert path owner true (.reference target) =
      scope.convert (path ++ [target]) target true component.shape := by
  rw [convert, Validator.ofShape]
  simp only [dif_neg hpath, Bool.not_true, Bool.false_and, Bool.false_eq_true, if_false, if_true]
  split
  · rename_i c hc
    obtain rfl := Option.some.inj (hc.symm.trans hcomponent)
    rfl
  · rename_i hnone
    exact absurd (hnone.symm.trans hcomponent) (by simp)

/-- All other references stay bare. -/
theorem convert_reference_bare (hpath : target ∉ path)
    (hcycle : (!inline && scope.cycles.any (·.shared owner target)) = false)
    (hbare : (if inline then scope.components.get? target else none) = none) :
    scope.convert path owner inline (.reference target) = .reference target := by
  rw [convert, Validator.ofShape, dif_neg hpath, hcycle]
  cases inline with
  | false => rfl
  | true =>
      simp only [if_true, Bool.false_eq_true, if_false] at hbare ⊢
      split
      · rename_i c hc
        exact absurd (hbare.symm.trans hc) (by simp)
      · rfl

/-- An inline conversion names what is no component. -/
theorem convert_reference_unknown (hpath : target ∉ path)
    (hunknown : scope.components.get? target = none) :
    scope.convert path owner true (.reference target) = .reference target :=
  convert_reference_bare scope owner hpath rfl hunknown

end Reference

end Scope

/-! ### Conversions that are not inline -/

namespace Scope

/-- Whether a conversion that is not inline defers a reference of `owner` to `target`. -/
def Defers (scope : Scope) (path : List String) (owner target : String) : Prop :=
  target ∈ path ∨ scope.cycles.any (·.shared owner target) = true

instance (scope : Scope) (path : List String) (owner target : String) :
    Decidable (scope.Defers path owner target) :=
  inferInstanceAs (Decidable (_ ∨ _))

/-- A conversion that is not inline decides about each reference by itself. -/
theorem convert_named (scope : Scope) (path : List String) (owner : String) (shape : Shape) :
    scope.convert path owner false shape =
      .ofShape (fun target =>
        if scope.Defers path owner target then .deferred target else .reference target) shape := by
  rw [convert]
  refine Validator.ofShape_congr shape fun target _ => ?_
  by_cases hpath : target ∈ path
  · simp [Defers, hpath]
  · by_cases hcycle : scope.cycles.any (·.shared owner target) = true
    · simp [Defers, hpath, hcycle]
    · simp [Defers, hpath, hcycle]

/-- A conversion that is not inline uses each written reference once, in order. -/
theorem uses_convert_named (scope : Scope) (path : List String) (owner : String)
    (shape : Shape) :
    (scope.convert path owner false shape).uses =
      shape.references.map fun target => ⟨target, decide (scope.Defers path owner target)⟩ := by
  rw [convert_named, Validator.uses_ofShape, List.map_eq_flatMap]
  refine congrArg (List.flatMap · shape.references) (funext fun target => ?_)
  by_cases h : scope.Defers path owner target
  · rw [if_pos h, Validator.uses, decide_eq_true h]
  · rw [if_neg h, Validator.uses, decide_eq_false h]

/-! ### Inline conversions -/

/-- Each use in an inline conversion comes from one written reference: it is deferred if it is being
expanded and bare if it cannot be, and otherwise stands in what is put in its place. -/
theorem mem_uses_convert_inline_iff (scope : Scope) {path : List String} (owner : String)
    {shape : Shape} {use : Validator.Use} :
    use ∈ (scope.convert path owner true shape).uses ↔
      ∃ target ∈ shape.references, (target ∈ path ∧ use = ⟨target, true⟩) ∨
        (target ∉ path ∧ scope.components.get? target = none ∧ use = ⟨target, false⟩) ∨
        (target ∉ path ∧ ∃ component, scope.components.get? target = some component ∧
          use ∈ (scope.convert (path ++ [target]) target true component.shape).uses) := by
  rw [convert_eq_ofShape, Validator.uses_ofShape, List.mem_flatMap]
  refine exists_congr fun target => and_congr_right fun _ => ?_
  by_cases hpath : target ∈ path
  · rw [convert_reference_deferred scope owner (Or.inr hpath), Validator.uses]
    simp [hpath]
  cases hcomponent : scope.components.get? target with
  | none =>
      rw [convert_reference_unknown scope owner hpath hcomponent, Validator.uses]
      simp [hpath]
  | some component =>
      rw [convert_reference_component scope owner hpath hcomponent]
      simp [hpath]

/-- What an inline conversion still uses: it defers what is being expanded, and names what cannot
be expanded. That is written in the shape itself or in some component. -/
theorem mem_uses_convert_inline (scope : Scope) (path : List String) (owner : String)
    (shape : Shape) {use : Validator.Use} (h : use ∈ (scope.convert path owner true shape).uses) :
    (use.deferred = true ∧ (use.target ∈ path ∨ use.target ∈ scope.components.keys)) ∨
      (use.deferred = false ∧ use.target ∉ scope.components.keys ∧
        (use.target ∈ shape.references ∨ ∃ name, Refers scope.components name use.target)) := by
  obtain ⟨target, htarget, ⟨hpath, rfl⟩ | ⟨-, hnone, rfl⟩ | ⟨hpath, c, hc, huse⟩⟩ :=
    (mem_uses_convert_inline_iff scope owner).mp h
  · exact Or.inl ⟨rfl, Or.inl hpath⟩
  · exact Or.inr ⟨rfl, Table.get?_eq_none_iff.mp hnone, Or.inl htarget⟩
  rcases mem_uses_convert_inline scope (path ++ [target]) target c.shape huse with
    ⟨hdeferred, hmem⟩ | ⟨hbare, hunknown, hwritten⟩
  · refine Or.inl ⟨hdeferred, ?_⟩
    rcases hmem with hmem | hmem
    · rcases List.mem_append.mp hmem with hmem | hmem
      · exact Or.inl hmem
      · rw [List.mem_singleton.mp hmem]
        exact Or.inr (Table.mem_keys_of_get? hc)
    · exact Or.inr hmem
  · refine Or.inr ⟨hbare, hunknown, Or.inr ?_⟩
    rcases hwritten with hwritten | hwritten
    · exact ⟨target, c, hc, hwritten⟩
    · exact hwritten
termination_by remaining scope.components.keys path
decreasing_by
  exact remaining_append_lt (Table.mem_keys_of_get? hc) hpath

/-- An inline conversion names each target that it cannot expand. -/
theorem mem_uses_convert_inline_of_not_mem_keys (scope : Scope) {path : List String}
    (owner : String) {shape : Shape} {target : String} (htarget : target ∈ shape.references)
    (hpath : target ∉ path) (hunknown : target ∉ scope.components.keys) :
    ⟨target, false⟩ ∈ (scope.convert path owner true shape).uses :=
  (mem_uses_convert_inline_iff scope owner).mpr
    ⟨target, htarget, Or.inr (Or.inl ⟨hpath, Table.get?_eq_none_iff.mpr hunknown, rfl⟩)⟩

end Scope

/-! ### Recorded targets -/

/-- A conversion that is not inline records every written reference, except one of its owner to
itself that is deferred. -/
theorem recordedTargets_named (scope : Scope) (path : List String) {owner : String}
    (howner : owner ≠ "") (shape : Shape) :
    recordedTargets owner false (scope.convert path owner false shape) =
      shape.references.filter fun target =>
        ¬ (target = owner ∧ scope.Defers path owner owner) := by
  have hempty : owner.isEmpty = false := by simp [howner]
  rw [recordedTargets, Bool.false_or, hempty, if_neg Bool.false_ne_true, Scope.uses_convert_named,
    List.filter_map, List.map_map,
    show (Validator.Use.target ∘ fun target =>
      ⟨target, decide (scope.Defers path owner target)⟩) = id from rfl, List.map_id]
  refine List.filter_congr fun target _ => ?_
  by_cases h : target = owner
  · simp [h]
  · simp [h]

/-- What a conversion with its owner on the path records: every written reference to another
shape, whatever else is on the path. -/
theorem recordedTargets_convert_named (scope : Scope) {path : List String} {owner : String}
    (howner : owner ∈ path) (shape : Shape) :
    recordedTargets owner false (scope.convert path owner false shape) =
      if owner.isEmpty then [] else shape.references.filter (· ≠ owner) := by
  by_cases hempty : owner.isEmpty = true
  · rw [recordedTargets, Bool.false_or, if_pos hempty, if_pos hempty]
  · rw [if_neg hempty, recordedTargets_named scope path (by simpa using hempty)]
    refine List.filter_congr fun target _ => ?_
    simp [Scope.Defers, howner]

end OpenApiZod

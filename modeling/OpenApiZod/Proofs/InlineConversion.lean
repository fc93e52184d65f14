import OpenApiZod.Proofs.ComponentFile

/-!
# Inline conversion as substitution

An inline conversion puts the validators of components where a shape refers to them.
`Shape.expanded` does the same with shapes: it puts the components' shapes in the places of
references, then those of the components that these refer to, and leaves references to other names
as they are. Where references lead to no cycle, to convert a shape inline is to convert what it
expands to (`convert_eq_expand`).

`ChainTo` is what an inline conversion keeps true of its path: from every name on it, references
lead to all that the shape at hand refers to. An inline conversion defers only what is on the path,
so all that it defers leads back to itself (`leads_back_of_deferred`). Without a cycle nothing on
the path is met again. Then every expansion leaves fewer components that are not on the path, so
there are no more expansions inside each other than components.
-/

open Relation

namespace OpenApiZod

/-! ### Substitution -/

namespace Shape

section Substitute

variable (f : String → Shape)

mutual

/-- The shape with another one in the place of each reference. -/
def substitute : Shape → Shape
  | .reference target => f target
  | .composition kind members => .composition kind (substituteMembers members)
  | .array (some items) minItems maxItems => .array (some (substitute items)) minItems maxItems
  | .object properties required extra =>
    .object (substituteProperties properties) required (substituteExtra extra)
  | .nullable inner => .nullable (substitute inner)
  | shape => shape

/-- Members with other shapes in the places of references. -/
def substituteMembers : List Shape → List Shape
  | [] => []
  | s :: rest => substitute s :: substituteMembers rest

/-- Properties with other shapes in the places of references. -/
def substituteProperties : List (String × Shape) → List (String × Shape)
  | [] => []
  | (name, s) :: rest => (name, substitute s) :: substituteProperties rest

/-- The treatment of properties that are not listed, with other shapes in the places of
references. -/
def substituteExtra : Extra Shape → Extra Shape
  | .typed values => .typed (substitute values)
  | extra => extra

end

end Substitute

section Congr

open Validator

variable {f f' : String → Shape}

mutual

/-- A substitution depends on what stands for the references of the shape, and on nothing else. -/
theorem substitute_congr : ∀ s : Shape, (∀ target ∈ s.references, f target = f' target) →
    substitute f s = substitute f' s
  | .reference target, h => by
      rw [substitute, substitute]
      exact h target (by rw [references]; exact List.mem_singleton_self target)
  | .composition kind members, h => by
      rw [substitute, substitute, substituteMembers_congr members h]
  | .string _, _ => rfl
  | .number _, _ => rfl
  | .boolean, _ => rfl
  | .null, _ => rfl
  | .literal _, _ => rfl
  | .array none _ _, _ => rfl
  | .array (some items) _ _, h => by
      rw [substitute, substitute, substitute_congr items h]
  | .object properties required extra, h => by
      rw [references_object, List.forall_mem_append] at h
      rw [substitute, substitute, substituteProperties_congr properties h.1,
        substituteExtra_congr extra h.2]
  | .nullable inner, h => by
      rw [substitute, substitute, substitute_congr inner h]
  | .unknown, _ => rfl

/-- So does a substitution in members. -/
theorem substituteMembers_congr : ∀ members : List Shape,
    (∀ target ∈ referencesOfMembers members, f target = f' target) →
      substituteMembers f members = substituteMembers f' members
  | [], _ => rfl
  | s :: rest, h => by
      rw [referencesOfMembers, List.forall_mem_append] at h
      rw [substituteMembers, substituteMembers, substitute_congr s h.1,
        substituteMembers_congr rest h.2]

/-- So does one in properties. -/
theorem substituteProperties_congr : ∀ properties : List (String × Shape),
    (∀ target ∈ referencesOfProperties properties, f target = f' target) →
      substituteProperties f properties = substituteProperties f' properties
  | [], _ => rfl
  | (name, s) :: rest, h => by
      rw [referencesOfProperties, List.forall_mem_append] at h
      rw [substituteProperties, substituteProperties, substitute_congr s h.1,
        substituteProperties_congr rest h.2]

/-- And one in the treatment of other properties. -/
theorem substituteExtra_congr : ∀ extra : Extra Shape,
    (∀ target ∈ referencesOfExtra extra, f target = f' target) →
      substituteExtra f extra = substituteExtra f' extra
  | .unspecified, _ => rfl
  | .forbidden, _ => rfl
  | .unrestricted, _ => rfl
  | .typed values, h => by
      rw [substituteExtra, substituteExtra, substitute_congr values h]

end

end Congr

mutual

/-- To put a reference in its own place changes nothing. -/
theorem substitute_reference : ∀ s : Shape, substitute .reference s = s
  | .reference _ => by rw [substitute]
  | .composition _ members => by rw [substitute, substituteMembers_reference members]
  | .string _ => rfl
  | .number _ => rfl
  | .boolean => rfl
  | .null => rfl
  | .literal _ => rfl
  | .array none _ _ => rfl
  | .array (some items) _ _ => by rw [substitute, substitute_reference items]
  | .object properties _ extra => by
      rw [substitute, substituteProperties_reference properties, substituteExtra_reference extra]
  | .nullable inner => by rw [substitute, substitute_reference inner]
  | .unknown => rfl

/-- References that stand for themselves leave members as they are. -/
theorem substituteMembers_reference : ∀ members : List Shape,
    substituteMembers .reference members = members
  | [] => rfl
  | s :: rest => by
      rw [substituteMembers, substitute_reference s, substituteMembers_reference rest]

/-- They leave properties as they are. -/
theorem substituteProperties_reference : ∀ properties : List (String × Shape),
    substituteProperties .reference properties = properties
  | [] => rfl
  | (_, s) :: rest => by
      rw [substituteProperties, substitute_reference s, substituteProperties_reference rest]

/-- And the treatment of other properties. -/
theorem substituteExtra_reference : ∀ extra : Extra Shape,
    substituteExtra .reference extra = extra
  | .unspecified => rfl
  | .forbidden => rfl
  | .unrestricted => rfl
  | .typed values => by rw [substituteExtra, substitute_reference values]

end

end Shape

namespace Validator

open Shape (substitute substituteMembers substituteProperties substituteExtra)

section Substitute

variable (g : String → Validator) (f : String → Shape)

mutual

/-- The validator of a shape in which others stand for references has their validators there. -/
theorem ofShape_substitute : ∀ s : Shape,
    ofShape g (substitute f s) = ofShape (fun target => ofShape g (f target)) s
  | .reference _ => by rw [substitute, ofShape]
  | .composition .allOf members => by
      rw [substitute, ofShape, ofShape, ofMembers_substitute members]
  | .composition .oneOf members => congrArg unionOf (ofMembers_substitute members)
  | .composition .anyOf members => congrArg unionOf (ofMembers_substitute members)
  | .string _ => rfl
  | .number _ => rfl
  | .boolean => rfl
  | .null => rfl
  | .literal _ => rfl
  | .array none _ _ => rfl
  | .array (some items) _ _ => by
      rw [substitute, ofShape, ofShape, ofItems, ofItems, ofShape_substitute items]
  | .object [] required extra => by
      rw [substitute, substituteProperties, ofShape, ofShape, ofExtra_substitute extra]
  | .object ((name, s) :: rest) required extra => by
      rw [substitute, substituteProperties, ofShape, ofShape, ofExtra_substitute extra,
        ← substituteProperties, ofProperties_substitute required ((name, s) :: rest)]
  | .nullable inner => by
      rw [substitute, ofShape, ofShape, ofShape_substitute inner]
  | .unknown => rfl

/-- The validators of substituted members have those of the substitutes in the places of references.
-/
theorem ofMembers_substitute : ∀ members : List Shape,
    ofMembers g (substituteMembers f members) =
      ofMembers (fun target => ofShape g (f target)) members
  | [] => rfl
  | s :: rest => by
      rw [substituteMembers, ofMembers, ofMembers, ofShape_substitute s, ofMembers_substitute rest]

/-- So do those of substituted properties. -/
theorem ofProperties_substitute (required : List String) :
    ∀ properties : List (String × Shape),
    ofProperties g required (substituteProperties f properties) =
      ofProperties (fun target => ofShape g (f target)) required properties
  | [] => rfl
  | (name, s) :: rest => by
      rw [substituteProperties, ofProperties, ofProperties, ofShape_substitute s,
        ofProperties_substitute required rest]

/-- So does the treatment of other properties. -/
theorem ofExtra_substitute : ∀ extra : Extra Shape,
    ofExtra g (substituteExtra f extra) = ofExtra (fun target => ofShape g (f target)) extra
  | .unspecified => rfl
  | .forbidden => rfl
  | .unrestricted => rfl
  | .typed values => by
      rw [substituteExtra, ofExtra, ofExtra, ofShape_substitute values]

end

end Substitute

end Validator

/-! ### Expansion -/

namespace Shape

/-- What stands for a reference: the component's shape, after `expand`, or the reference itself if
there is no such component. -/
def replacement (components : ComponentTable) (expand : Shape → Shape) (target : String) : Shape :=
  match components.get? target with
  | some component => expand component.shape
  | none => .reference target

/-- The shape with the shapes of components in the places of references, at most `depth` of them
inside each other. -/
def expand (components : ComponentTable) : Nat → Shape → Shape
  | 0, shape => shape
  | depth + 1, shape => shape.substitute (replacement components (expand components depth))

/-- The shape with the shapes of components in the places of all references to components. -/
def expanded (components : ComponentTable) (shape : Shape) : Shape :=
  shape.expand components components.size

/-- A reference to a component is replaced by the component's shape. -/
theorem replacement_of_get?_eq_some {components : ComponentTable} {expand : Shape → Shape}
    {target : String} {component : Component} (h : components.get? target = some component) :
    replacement components expand target = expand component.shape := by
  rw [replacement, h]

/-- Any other stays. -/
theorem replacement_of_get?_eq_none {components : ComponentTable} {expand : Shape → Shape}
    {target : String} (h : components.get? target = none) :
    replacement components expand target = .reference target := by
  rw [replacement, h]

end Shape

/-! ### Chains of references -/

/-- References lead from every name on the path to all that the shape refers to. -/
def ChainTo (components : ComponentTable) (path : List String) (shape : Shape) : Prop :=
  ∀ target ∈ shape.references, ∀ x ∈ path, TransGen (Refers components) x target

/-- References lead from the shape to the name. -/
def LeadsTo (components : ComponentTable) (shape : Shape) (name : String) : Prop :=
  ∃ target ∈ shape.references, ReflTransGen (Refers components) target name

/-- The shape leads to no name on a cycle. -/
def Acyclic (components : ComponentTable) (shape : Shape) : Prop :=
  ∀ name, LeadsTo components shape name → ¬ TransGen (Refers components) name name

section Chains

variable {components : ComponentTable} {path : List String} {shape : Shape} {target : String}

/-- From no name nothing has to lead anywhere. -/
theorem chainTo_nil (components : ComponentTable) (shape : Shape) : ChainTo components [] shape :=
  fun _ _ _ h => absurd h List.not_mem_nil

/-- A component that is put on the path goes on with the chain. -/
theorem ChainTo.expand {component : Component} (h : ChainTo components path shape)
    (htarget : target ∈ shape.references)
    (hcomponent : components.get? target = some component) :
    ChainTo components (path ++ [target]) component.shape :=
  fun _ hnext _ hx => leads_to_target (h target htarget) hx ⟨component, hcomponent, hnext⟩

/-- What an acyclic shape refers to is acyclic. -/
theorem Acyclic.expand {component : Component} (h : Acyclic components shape)
    (htarget : target ∈ shape.references) (hcomponent : components.get? target = some component) :
    Acyclic components component.shape := by
  rintro name ⟨next, hnext, hpath⟩
  exact h name ⟨target, htarget, hpath.head ⟨component, hcomponent, hnext⟩⟩

/-- On the way down from a shape that leads to no cycle, no name is met twice. -/
theorem Acyclic.not_mem (h : Acyclic components shape) (hchain : ChainTo components path shape)
    (htarget : target ∈ shape.references) : target ∉ path := fun hpath =>
  h target ⟨target, htarget, ReflTransGen.refl⟩ (hchain target htarget target hpath)

/-- A list in which references lead forward only shows that there are no cycles. -/
theorem Acyclic.of_order (order : List String)
    (hstart : ∀ target ∈ shape.references, target ∈ order)
    (hforward : ∀ a ∈ order, ∀ b ∈ (ReferenceGraph.ofComponents components).dependencies a,
      b ∈ order ∧ order.idxOf a < order.idxOf b) : Acyclic components shape := by
  have hrefers : ∀ a b, Refers components a b → a ∈ order →
      b ∈ order ∧ order.idxOf a < order.idxOf b := by
    rw [← ReferenceGraph.edge_ofComponents]
    exact fun a b hedge ha => hforward a ha b hedge
  have hlater : ∀ {a b}, a ∈ order → TransGen (Refers components) a b →
      b ∈ order ∧ order.idxOf a < order.idxOf b := by
    intro a b ha h
    induction h with
    | single hedge => exact hrefers _ _ hedge ha
    | tail _ hedge ih =>
        obtain ⟨hmem, hlt⟩ := hrefers _ _ hedge ih.1
        exact ⟨hmem, Nat.lt_trans ih.2 hlt⟩
  rintro name ⟨target, htarget, hpath⟩ hback
  have hname : name ∈ order := by
    rcases reflTransGen_iff_eq_or_transGen.mp hpath with rfl | hpath
    · exact hstart name htarget
    · exact (hlater (hstart target htarget) hpath).1
  exact Nat.lt_irrefl _ (hlater hname hback).2

/-- When all components are on the path, nothing refers to one any more. -/
theorem Acyclic.get?_eq_none (h : Acyclic components shape) (hchain : ChainTo components path shape)
    (hnone : remaining components.keys path = 0) (htarget : target ∈ shape.references) :
    components.get? target = none := by
  cases hcomponent : components.get? target with
  | none => rfl
  | some component =>
      have hlt := remaining_append_lt (Table.mem_keys_of_get? hcomponent)
        (h.not_mem hchain htarget)
      omega

/-- An expansion leaves fewer components that are not on the path. -/
theorem Acyclic.remaining_le {component : Component} {depth : Nat} (h : Acyclic components shape)
    (hchain : ChainTo components path shape) (hdepth : remaining components.keys path ≤ depth + 1)
    (htarget : target ∈ shape.references) (hcomponent : components.get? target = some component) :
    remaining components.keys (path ++ [target]) ≤ depth := by
  have hlt := remaining_append_lt (Table.mem_keys_of_get? hcomponent) (h.not_mem hchain htarget)
  omega

end Chains

/-! ### What is expanded -/

namespace Shape

variable {components : ComponentTable}

/-- Where nothing leads to a cycle, it is enough to expand as often as components are left. -/
theorem expand_succ {path : List String} {shape : Shape} {depth : Nat}
    (hchain : ChainTo components path shape) (hacyclic : Acyclic components shape)
    (hdepth : remaining components.keys path ≤ depth) :
    shape.expand components (depth + 1) = shape.expand components depth := by
  induction depth generalizing path shape with
  | zero =>
      rw [expand, expand]
      refine (substitute_congr shape fun target htarget => ?_).trans (substitute_reference shape)
      exact replacement_of_get?_eq_none
        (hacyclic.get?_eq_none hchain (Nat.le_zero.mp hdepth) htarget)
  | succ depth ih =>
      rw [expand, expand]
      refine substitute_congr shape fun target htarget => ?_
      cases hcomponent : components.get? target with
      | none =>
          rw [replacement_of_get?_eq_none hcomponent, replacement_of_get?_eq_none hcomponent]
      | some component =>
          rw [replacement_of_get?_eq_some hcomponent, replacement_of_get?_eq_some hcomponent]
          exact ih (hchain.expand htarget hcomponent) (hacyclic.expand htarget hcomponent)
            (hacyclic.remaining_le hchain hdepth htarget hcomponent)

/-- A conversion that begins can go no deeper than the table is long. -/
theorem remaining_nil_le_size (components : ComponentTable) :
    remaining components.keys [] ≤ components.size := by
  rw [remaining, Table.size, ← List.length_map Prod.fst]
  exact List.length_filter_le _ _

/-- Where nothing leads to a cycle, the expanded shapes of components stand for the references of an
expanded shape. -/
theorem expanded_eq_substitute {shape : Shape} (h : Acyclic components shape) :
    shape.expanded components = shape.substitute (replacement components (expanded components)) :=
  (expand_succ (chainTo_nil components shape) h (remaining_nil_le_size components)).symm

end Shape

namespace Scope

variable (scope : Scope)

/-- What an inline conversion defers leads back to itself. -/
theorem leads_back_of_deferred (owner : String) {path : List String} {shape : Shape}
    {target : String} (hchain : ChainTo scope.components path shape)
    (h : ⟨target, true⟩ ∈ (scope.convert path owner true shape).uses) :
    TransGen (Refers scope.components) target target := by
  obtain ⟨next, hnext, ⟨hpath, huse⟩ | ⟨-, -, huse⟩ | ⟨hpath, component, hcomponent, huse⟩⟩ :=
    (mem_uses_convert_inline_iff scope owner).mp h
  -- A deferred target is on the path, and the chain leads from there to the reference.
  · obtain ⟨rfl, -⟩ := Validator.Use.mk.inj huse
    exact hchain target hnext target hpath
  · exact absurd (Validator.Use.mk.inj huse).2 (by simp)
  · exact leads_back_of_deferred next (hchain.expand hnext hcomponent) huse
termination_by remaining scope.components.keys path
decreasing_by
  exact remaining_append_lt (Table.mem_keys_of_get? hcomponent) hpath

/-- Where nothing leads to a cycle, an inline conversion converts the expanded shape. -/
theorem convert_eq_expand (owner : String) {path : List String} {shape : Shape} {depth : Nat}
    (hchain : ChainTo scope.components path shape) (hacyclic : Acyclic scope.components shape)
    (hdepth : remaining scope.components.keys path ≤ depth) :
    scope.convert path owner true shape =
      .ofShape .reference (shape.expand scope.components depth) := by
  induction depth generalizing path owner shape with
  | zero =>
      -- All components are on the path, so nothing that the shape refers to is one.
      rw [convert_eq_ofShape, Shape.expand]
      refine Validator.ofShape_congr shape fun target htarget => ?_
      exact convert_reference_unknown scope owner (hacyclic.not_mem hchain htarget)
        (hacyclic.get?_eq_none hchain (Nat.le_zero.mp hdepth) htarget)
  | succ depth ih =>
      rw [convert_eq_ofShape, Shape.expand, Validator.ofShape_substitute]
      refine Validator.ofShape_congr shape fun target htarget => ?_
      have hpath := hacyclic.not_mem hchain htarget
      cases hcomponent : scope.components.get? target with
      | none =>
          rw [convert_reference_unknown scope owner hpath hcomponent,
            Shape.replacement_of_get?_eq_none hcomponent, Validator.ofShape]
      | some component =>
          rw [convert_reference_component scope owner hpath hcomponent,
            Shape.replacement_of_get?_eq_some hcomponent]
          exact ih target (hchain.expand htarget hcomponent)
            (hacyclic.expand htarget hcomponent)
            (hacyclic.remaining_le hchain hdepth htarget hcomponent)

end Scope

/-- The deferred targets of a validator are those of its deferred uses. -/
theorem mem_deferredTargets_iff {v : Validator} {target : String} :
    target ∈ deferredTargets v ↔ ⟨target, true⟩ ∈ v.uses := by
  rw [deferredTargets, List.mem_map]
  constructor
  · rintro ⟨⟨_, deferred⟩, huse, rfl⟩
    obtain ⟨huse, hdeferred⟩ := List.mem_filter.mp huse
    obtain rfl : deferred = true := hdeferred
    exact huse
  · exact fun huse => ⟨_, List.mem_filter.mpr ⟨huse, rfl⟩, rfl⟩

namespace Session

/-- **Inline conversion is substitution.** All that a conversion with an empty path defers inline
leads back to itself. If the shape leads to no name on a cycle, nothing is deferred, and the
validator is the one that the expanded shape has in a session without cycles if it is not converted
inline; so both are written alike, whatever bindings the names have. In an expanded shape, the
expanded shapes of components stand where the shape refers to them, and only names that are no
components are left. -/
theorem convert_inline (s : Session) (hpath : s.path = []) (owner : String) (shape : Shape) :
    let components := s.scope.components
    let v := (s.convert owner true (some shape)).1
    let s' := (s.convert owner true (some shape)).2
    (∀ target ∈ deferredTargets v, TransGen (Refers components) target target) ∧
      (∀ target ∈ s'.deferred,
        target ∈ s.deferred ∨ TransGen (Refers components) target target) ∧
      ((∀ name, LeadsTo components shape name → ¬ TransGen (Refers components) name name) →
        s'.deferred = s.deferred ∧
          (∀ other, v = ((start ⟨components, none⟩).convert other false
            (some (shape.expanded components))).1) ∧
          shape.expanded components =
            shape.substitute (Shape.replacement components (Shape.expanded components)) ∧
          ∀ target ∈ (shape.expanded components).references, target ∉ components.keys) := by
  intro components v s'
  have hv : v = s.scope.convert [] owner true shape := by rw [← hpath]; rfl
  have hchain := chainTo_nil components shape
  have hback : ∀ target ∈ deferredTargets v, TransGen (Refers components) target target := by
    intro target htarget
    exact s.scope.leads_back_of_deferred owner hchain (hv ▸ mem_deferredTargets_iff.mp htarget)
  refine ⟨hback, fun target htarget => ?_, fun hacyclic => ?_⟩
  · exact (mem_extendNew.mp htarget).imp_right (hback target)
  have hexpanded : v = .ofShape .reference (shape.expanded components) :=
    hv.trans (s.scope.convert_eq_expand owner hchain hacyclic (Shape.remaining_nil_le_size _))
  have huses : v.uses =
      (shape.expanded components).references.map fun target => ⟨target, false⟩ := by
    rw [hexpanded, Validator.uses_ofShape, List.map_eq_flatMap]
    rfl
  refine ⟨?_, fun other => ?_, Shape.expanded_eq_substitute hacyclic, fun target htarget => ?_⟩
  · have hnone : deferredTargets v = [] := by
      rw [List.eq_nil_iff_forall_not_mem]
      intro target htarget
      rw [mem_deferredTargets_iff, huses] at htarget
      simp at htarget
    show extendNew s.deferred (deferredTargets v) = s.deferred
    rw [hnone]
    rfl
  · show v = Scope.convert ⟨components, none⟩ [] other false (shape.expanded components)
    rw [hexpanded, Scope.convert_named]
    refine Validator.ofShape_congr _ fun target _ => ?_
    rw [if_neg (by simp [Scope.Defers])]
  · have huse : ⟨target, false⟩ ∈ v.uses := huses ▸ List.mem_map_of_mem htarget
    rw [hv] at huse
    rcases s.scope.mem_uses_convert_inline [] owner shape huse with ⟨hfalse, -⟩ | ⟨-, hunknown, -⟩
    · exact absurd hfalse (by simp)
    · exact hunknown

/-- An order refers to a pet and to a missing shape, and the pet to a tag. `Loop` refers to itself,
but the order does not lead there. -/
theorem convert_inline_order :
    let components : ComponentTable := .ofList
      [("Order", ⟨"Order", none, .object [("pet", .reference "Pet"), ("ghost", .reference "Ghost")]
          ["pet"] .unspecified⟩),
        ("Pet", ⟨"Pet", none, .array (some (.reference "Tag")) none none⟩),
        ("Tag", ⟨"Tag", none, .boolean⟩), ("Loop", ⟨"Loop", none, .reference "Loop"⟩)]
    let s := start ⟨components, none⟩
    s.path = [] ∧
      (∀ name, LeadsTo components (.reference "Order") name →
        ¬ TransGen (Refers components) name name) ∧
      ∃ v s', s.convert "" true (some (.reference "Order")) = (v, s') ∧ s'.deferred = [] ∧
        ∀ other, v = (s.convert other false (some (.object
          [("pet", .array (some .boolean) none none), ("ghost", .reference "Ghost")] ["pet"]
            .unspecified))).1 := by
  intro components s
  have hacyclic : Acyclic components (.reference "Order") :=
    .of_order ["Order", "Pet", "Tag", "Ghost"] (by decide) (by decide)
  obtain ⟨-, -, hsubstitution⟩ := s.convert_inline rfl "" (.reference "Order")
  obtain ⟨hdeferred, hsame, -, -⟩ := hsubstitution hacyclic
  exact ⟨rfl, hacyclic, _, _, rfl, hdeferred, hsame⟩

example : deferredTargets ((start ⟨.ofList [("Node", ⟨"Node", none, .array
    (some (.reference "Node")) none none⟩)], none⟩).convert "" true (some (.reference "Node"))).1 =
    ["Node"] := by
  cbv

end Session

end OpenApiZod

import OpenApiZod.Proofs.InlineConversion

/-!
# Where the patterns of texts end up

A validator holds the patterns of its shape and, where references are expanded, those of the shapes
that it expands (`mem_patterns_ofShape`). A conversion that is not inline has the patterns of its
own shape only (`mem_patterns_convert_named`). An inline conversion has those of all components that
the shape leads to (`mem_patterns_convert_inline_iff`). A reference back to what is being expanded
is deferred, but a chain of references can always be cut so that it does not come back
(`exists_chain_avoiding`).
-/

open Relation

namespace OpenApiZod

/-! ### Patterns of shapes -/

/-- The pattern that a text is tested against. Where values are listed, none is. -/
def StringRules.patterns (rules : StringRules) : List String :=
  if rules.enum.isEmpty then rules.pattern.toList else []

namespace Shape

mutual

/-- The patterns in a shape; references are not followed. -/
def patterns : Shape → List String
  | .composition _ members => patternsOfMembers members
  | .string rules => rules.patterns
  | .array (some items) _ _ => patterns items
  | .object properties _ extra => patternsOfProperties properties ++ patternsOfExtra extra
  | .nullable inner => patterns inner
  | _ => []

/-- The patterns in members. -/
def patternsOfMembers : List Shape → List String
  | [] => []
  | s :: rest => patterns s ++ patternsOfMembers rest

/-- The patterns in properties. -/
def patternsOfProperties : List (String × Shape) → List String
  | [] => []
  | (_, s) :: rest => patterns s ++ patternsOfProperties rest

/-- The patterns in the treatment of properties that are not listed. -/
def patternsOfExtra : Extra Shape → List String
  | .typed values => patterns values
  | _ => []

end

end Shape

/-! ### Patterns of validators -/

/-- The patterns of a rule for a text. -/
def StringCheck.patterns : StringCheck → List String
  | .regex pattern => [pattern]
  | _ => []

namespace Validator

mutual

/-- The patterns in a validator. -/
def patterns : Validator → List String
  | .string checks => checks.flatMap StringCheck.patterns
  | .union members => patternsOfMembers members
  | .intersection left right => patterns left ++ patterns right
  | .array items _ _ => patterns items
  | .record (some values) => patterns values
  | .object fields extra => patternsOfFields fields ++ patternsOfExtra extra
  | .optional inner => patterns inner
  | .nullable inner => patterns inner
  | _ => []

/-- The patterns in members. -/
def patternsOfMembers : List Validator → List String
  | [] => []
  | v :: rest => patterns v ++ patternsOfMembers rest

/-- The patterns in fields. -/
def patternsOfFields : List (String × Validator) → List String
  | [] => []
  | (_, v) :: rest => patterns v ++ patternsOfFields rest

/-- The patterns in the treatment of properties that are not listed. -/
def patternsOfExtra : Extra Validator → List String
  | .typed values => patterns values
  | _ => []

end

/-- There is no pattern in a reference. -/
theorem patterns_reference (target : String) : patterns (.reference target) = [] := rfl

/-- Nor is there one in a deferred reference. -/
theorem patterns_deferred (target : String) : patterns (.deferred target) = [] := rfl

/-- Patterns are gathered from the members of a validator. -/
theorem gathers_patterns : Gathers patterns patternsOfMembers where
  nil := rfl
  cons _ _ := rfl
  any := rfl
  null := rfl
  literal _ := rfl
  enum _ := rfl
  number _ := rfl
  union _ := rfl
  intersection _ _ := rfl
  optional _ := rfl

/-- The validator of a text has the pattern of its rules, unless values are listed. -/
theorem patterns_ofString (rules : StringRules) : patterns (ofString rules) = rules.patterns := by
  rw [ofString, StringRules.patterns]
  split
  · obtain ⟨format, pattern, minLength, maxLength, enum⟩ := rules
    have hformat : (format.bind formatCheck?).toList.flatMap StringCheck.patterns = [] := by
      cases format with
      | none => rfl
      | some format =>
          rw [Option.bind_some]
          unfold formatCheck?
          split <;> rfl
    have hpattern : (pattern.map StringCheck.regex).toList.flatMap StringCheck.patterns =
        pattern.toList := by
      cases pattern <;> rfl
    have hmin : (minLength.map StringCheck.min).toList.flatMap StringCheck.patterns = [] := by
      cases minLength <;> rfl
    have hmax : (maxLength.map StringCheck.max).toList.flatMap StringCheck.patterns = [] := by
      cases maxLength <;> rfl
    simp only [patterns, List.flatMap_append, hformat, hpattern, hmin, hmax, List.nil_append,
      List.append_nil]
  · exact gathers_patterns.gather_ofEnum rules.enum

section OfShape

variable (f : String → Validator) {pattern : String}

/-- A pattern is one of those listed, or what becomes of one of the references has it. -/
def Has (patterns references : List String) (pattern : String) : Prop :=
  pattern ∈ patterns ∨ ∃ target ∈ references, pattern ∈ (f target).patterns

/-- A pattern of two lists is one of the first or of the second. -/
theorem has_append {patterns patterns' references references' : List String} :
    Has f (patterns ++ patterns') (references ++ references') pattern ↔
      Has f patterns references pattern ∨ Has f patterns' references' pattern := by
  simp only [Has, List.mem_append, or_and_right, exists_or]
  exact or_or_or_comm

/-- Without references, only the patterns that are listed are there. -/
theorem has_nil {patterns : List String} : Has f patterns [] pattern ↔ pattern ∈ patterns :=
  or_iff_left fun ⟨_, h, _⟩ => List.not_mem_nil h

mutual

/-- The validator of a shape has the patterns of the shape, and those of what its references
become. -/
theorem mem_patterns_ofShape : ∀ s : Shape,
    pattern ∈ (ofShape f s).patterns ↔ Has f s.patterns s.references pattern
  | .reference target => by
      simp [ofShape, Has, Shape.patterns, Shape.references]
  | .composition .allOf members => by
      rw [ofShape, gathers_patterns.gather_intersectionOf, Shape.patterns, Shape.references]
      exact mem_patterns_ofMembers members
  | .composition .oneOf members => by
      rw [show ofShape f (.composition .oneOf members) = unionOf (ofMembers f members) from rfl,
        gathers_patterns.gather_unionOf, Shape.patterns, Shape.references]
      exact mem_patterns_ofMembers members
  | .composition .anyOf members => by
      rw [show ofShape f (.composition .anyOf members) = unionOf (ofMembers f members) from rfl,
        gathers_patterns.gather_unionOf, Shape.patterns, Shape.references]
      exact mem_patterns_ofMembers members
  | .string rules => by
      rw [ofShape, patterns_ofString, Shape.patterns]
      exact (has_nil f).symm
  | .number rules => by
      rw [ofShape, gathers_patterns.gather_ofNumber]
      exact (has_nil f).symm
  | .boolean | .null | .unknown | .array none _ _ => (has_nil f).symm
  | .literal values => by
      rw [ofShape, gathers_patterns.gather_ofLiterals]
      exact (has_nil f).symm
  | .array (some items) minItems maxItems => by
      rw [ofShape, patterns, ofItems, Shape.patterns, Shape.references]
      exact mem_patterns_ofShape items
  | .object [] required extra => by
      have hextra := mem_patterns_ofExtra extra
      cases extra <;> exact hextra
  | .object (property :: properties) required extra => by
      have hproperties := mem_patterns_ofProperties required (property :: properties)
      have hextra := mem_patterns_ofExtra extra
      rw [ofShape, patterns, List.mem_append, hproperties, hextra, ← has_append,
        ← references_object, Shape.patterns]
  | .nullable inner => by
      rw [ofShape, patterns, Shape.patterns, Shape.references]
      exact mem_patterns_ofShape inner

/-- The validators of members have the members' patterns and those of what they refer to. -/
theorem mem_patterns_ofMembers : ∀ members : List Shape,
    pattern ∈ patternsOfMembers (ofMembers f members) ↔
      Has f (Shape.patternsOfMembers members) (Shape.referencesOfMembers members) pattern
  | [] => (has_nil f).symm
  | s :: rest => by
      rw [ofMembers, patternsOfMembers, List.mem_append, mem_patterns_ofShape s,
        mem_patterns_ofMembers rest, Shape.patternsOfMembers, Shape.referencesOfMembers,
        has_append]

/-- The validators of properties have the properties' patterns and those of what they refer to. -/
theorem mem_patterns_ofProperties (required : List String) :
    ∀ properties : List (String × Shape),
      pattern ∈ patternsOfFields (ofProperties f required properties) ↔
        Has f (Shape.patternsOfProperties properties) (Shape.referencesOfProperties properties)
          pattern
  | [] => (has_nil f).symm
  | (name, s) :: rest => by
      rw [ofProperties, patternsOfFields, gathers_patterns.gather_ofProperty, List.mem_append,
        mem_patterns_ofShape s, mem_patterns_ofProperties required rest,
        Shape.patternsOfProperties, Shape.referencesOfProperties, has_append]

/-- So has the treatment of properties that are not listed. -/
theorem mem_patterns_ofExtra : ∀ extra : Extra Shape,
    pattern ∈ patternsOfExtra (ofExtra f extra) ↔
      Has f (Shape.patternsOfExtra extra) (referencesOfExtra extra) pattern
  | .unspecified | .forbidden | .unrestricted => (has_nil f).symm
  | .typed values => by
      rw [ofExtra, patternsOfExtra, Shape.patternsOfExtra, referencesOfExtra]
      exact mem_patterns_ofShape values

end

end OfShape

/-- Where references stay references, only the shape's own patterns are left. -/
theorem mem_patterns_ofShape_named {f : String → Validator} {s : Shape} {pattern : String}
    (h : ∀ target, (f target).patterns = []) :
    pattern ∈ (ofShape f s).patterns ↔ pattern ∈ s.patterns := by
  rw [mem_patterns_ofShape, Has]
  refine or_iff_left fun ⟨target, _, hmem⟩ => ?_
  rw [h target] at hmem
  exact List.not_mem_nil hmem

end Validator

/-! ### Conversions -/

/-- A chain can be cut so that it does not come back to where it starts. -/
theorem exists_chain_avoiding {α : Type} {r : α → α → Prop} {a b : α} (h : ReflTransGen r a b) :
    a = b ∨ ∃ c, r a c ∧ c ≠ a ∧ ReflTransGen (fun x y => r x y ∧ y ≠ a) c b := by
  induction h with
  | refl => exact Or.inl rfl
  | @tail b c _ hbc ih =>
      by_cases hback : c = a
      · exact Or.inl hback.symm
      rcases ih with rfl | ⟨next, hnext, hne, hchain⟩
      · exact Or.inr ⟨c, hbc, hback, ReflTransGen.refl⟩
      · exact Or.inr ⟨next, hnext, hne, hchain.tail ⟨hbc, hback⟩⟩

/-- A pattern of the shape, or of a component that references lead to. -/
def Shape.LeadsToPattern (components : ComponentTable) (shape : Shape) (pattern : String) : Prop :=
  pattern ∈ shape.patterns ∨ ∃ name c, LeadsTo components shape name ∧
    components.get? name = some c ∧ pattern ∈ c.shape.patterns

namespace Scope

variable (scope : Scope) {path : List String} {shape : Shape} {pattern : String}

/-- A conversion that is not inline has the patterns of the shape. -/
theorem mem_patterns_convert_named (owner : String) :
    pattern ∈ (scope.convert path owner false shape).patterns ↔ pattern ∈ shape.patterns := by
  rw [convert_named]
  refine Validator.mem_patterns_ofShape_named fun target => ?_
  split <;> rfl

/-- A pattern of an inline conversion is one of the shape, or stands in what is put in the place of
a reference. -/
theorem mem_patterns_convert_inline_step (owner : String) :
    pattern ∈ (scope.convert path owner true shape).patterns ↔
      pattern ∈ shape.patterns ∨ ∃ target ∈ shape.references, target ∉ path ∧
        ∃ c, scope.components.get? target = some c ∧
          pattern ∈ (scope.convert (path ++ [target]) target true c.shape).patterns := by
  rw [convert_eq_ofShape, Validator.mem_patterns_ofShape, Validator.Has]
  refine or_congr_right (exists_congr fun target => and_congr_right fun _ => ?_)
  by_cases hpath : target ∈ path
  · rw [convert_reference_deferred scope owner (Or.inr hpath), Validator.patterns_deferred]
    simp [hpath]
  cases hcomponent : scope.components.get? target with
  | none =>
      rw [convert_reference_unknown scope owner hpath hcomponent,
        Validator.patterns_reference]
      simp
  | some c =>
      rw [convert_reference_component scope owner hpath hcomponent]
      simp [hpath]

/-- A pattern of a validator that is converted in place is reached from the shape. -/
theorem leadsToPattern_of_mem_patterns (owner : String) (path : List String) (shape : Shape)
    (h : pattern ∈ (scope.convert path owner true shape).patterns) :
    shape.LeadsToPattern scope.components pattern := by
  obtain hown | ⟨target, htarget, hpath, c, hc, hmem⟩ :=
    (mem_patterns_convert_inline_step scope owner).mp h
  · exact Or.inl hown
  refine Or.inr ?_
  rcases leadsToPattern_of_mem_patterns target (path ++ [target]) c.shape hmem with
    hown | ⟨name, c', ⟨next, hnext, hchain⟩, hc', hmem⟩
  · exact ⟨target, c, ⟨target, htarget, ReflTransGen.refl⟩, hc, hown⟩
  · exact ⟨name, c', ⟨target, htarget, hchain.head ⟨c, hc, hnext⟩⟩, hc', hmem⟩
termination_by remaining scope.components.keys path
decreasing_by
  exact remaining_append_lt (Table.mem_keys_of_get? hc) hpath

/-- An inline conversion expands a component that a chain of references leads to past the names that
are being expanded. -/
theorem mem_patterns_of_chain (owner : String) {path : List String} {shape : Shape}
    {target name : String} {c : Component} (htarget : target ∈ shape.references)
    (hpath : target ∉ path)
    (hchain : ReflTransGen (fun a b => Refers scope.components a b ∧ b ∉ path) target name)
    (hc : scope.components.get? name = some c) (hpattern : pattern ∈ c.shape.patterns) :
    pattern ∈ (scope.convert path owner true shape).patterns := by
  rw [mem_patterns_convert_inline_step]
  refine Or.inr ⟨target, htarget, hpath, ?_⟩
  -- The rest of the chain has to avoid the target as well, which is put on the path.
  rcases exists_chain_avoiding hchain with rfl | ⟨next, ⟨⟨c', hc', hnext⟩, hfree⟩, hne, hrest⟩
  · exact ⟨c, hc, (mem_patterns_convert_inline_step scope target).mpr (Or.inl hpattern)⟩
  · refine ⟨c', hc', mem_patterns_of_chain target hnext ?_
      (ReflTransGen.mono ?_ _ _ hrest) hc hpattern⟩
    · simp [hfree, hne]
    · rintro a b ⟨⟨hrefers, hfree⟩, hne⟩
      exact ⟨hrefers, by simp [hfree, hne]⟩
termination_by remaining scope.components.keys path
decreasing_by
  exact remaining_append_lt (Table.mem_keys_of_get? hc') hpath

/-- An inline conversion that starts with an empty path has the patterns of all components that the
shape leads to. -/
theorem mem_patterns_convert_inline_iff (owner : String) :
    pattern ∈ (scope.convert [] owner true shape).patterns ↔
      shape.LeadsToPattern scope.components pattern := by
  refine ⟨leadsToPattern_of_mem_patterns scope owner [] shape, ?_⟩
  rintro (hown | ⟨name, c, ⟨target, htarget, hchain⟩, hc, hpattern⟩)
  · exact (mem_patterns_convert_inline_step scope owner).mpr (Or.inl hown)
  · refine mem_patterns_of_chain scope owner htarget List.not_mem_nil
      (ReflTransGen.mono ?_ _ _ hchain) hc hpattern
    exact fun a b hrefers => ⟨hrefers, List.not_mem_nil⟩

end Scope

end OpenApiZod

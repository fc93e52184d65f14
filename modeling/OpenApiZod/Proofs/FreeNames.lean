import OpenApiZod.Proofs.ModuleBindings
import OpenApiZod.Proofs.OperationImports
import OpenApiZod.Proofs.Patterns
import OpenApiZod.Proofs.ResponseNames

/-!
# Names that modules take from outside

An expression takes two kinds of names from outside its module: the namespace of validators, which
is everywhere, and the classes that it constructs. There is one class, `RegExp`, once for each
pattern (`Validator.classes_script`). A module captures such a name if it also binds it.

The namespace is never captured, since no identifier of a component is `z`. But `RegExp` is the
identifier of a component of that name (`ofName_eq_class_iff`), and nothing keeps it apart. So
`captures_iff` says which modules capture it: those with a pattern that import that component or are
its own. In the module of an operation the pattern may come from any component that a body leads to.
-/

namespace OpenApiZod

/-! ### Names from outside -/

namespace Script

mutual

/-- The classes that an expression constructs, in the order in which they are written. -/
def classes : Script → List String
  | .identifier _ | .json _ | .decimal _ | .natural _ => []
  | .call target _ arguments => classes target ++ classesOfAll arguments
  | .construct class_ arguments => class_ :: classesOfAll arguments
  | .list items => classesOfAll items
  | .record fields => classesOfFields fields
  | .thunk body => classes body

/-- The classes in expressions. -/
def classesOfAll : List Script → List String
  | [] => []
  | e :: rest => classes e ++ classesOfAll rest

/-- The classes in the fields of a record. -/
def classesOfFields : List (String × Script) → List String
  | [] => []
  | (_, e) :: rest => classes e ++ classesOfFields rest

end

/-- The names that an expression takes from outside: the namespace of validators and classes. -/
def outside (e : Script) : List String := e.identifiers.filter (· = "z") ++ e.classes

end Script

/-- A module captures a name that one of its expressions takes from outside, if it binds the name
for an import or a constant of its own. -/
def Module.Captures (m : Module) (name : String) : Prop :=
  (∃ d ∈ m.declarations, name ∈ (d.validator.script m.binding).outside) ∧
    name ∈ m.importedNames ++ m.exports

namespace Validator

/-- One class for each pattern. -/
def classesFor (patterns : List String) : List String := patterns.map fun _ => "RegExp"

/-- No patterns, no classes. -/
@[simp] theorem classesFor_nil : classesFor [] = [] := rfl

/-- The classes of two lists of patterns are those of the one and those of the other. -/
@[simp] theorem classesFor_append (xs ys : List String) :
    classesFor (xs ++ ys) = classesFor xs ++ classesFor ys :=
  List.map_append

/-- The only class is `RegExp`, and it is there if there is a pattern. -/
theorem mem_classesFor_iff {patterns : List String} {name : String} :
    name ∈ classesFor patterns ↔ name = "RegExp" ∧ ∃ pattern, pattern ∈ patterns := by
  rw [classesFor, List.mem_map]
  constructor
  · rintro ⟨pattern, hpattern, rfl⟩
    exact ⟨rfl, pattern, hpattern⟩
  · rintro ⟨rfl, pattern, hpattern⟩
    exact ⟨pattern, hpattern, rfl⟩

/-- A check of a string constructs a class if it has a pattern. -/
theorem classes_applyStringCheck (e : Script) (check : StringCheck) :
    (applyStringCheck e check).classes = e.classes ++ classesFor check.patterns := by
  cases check <;> rfl

/-- A check of a number constructs none. -/
theorem classes_applyNumberCheck (e : Script) (check : NumberCheck) :
    (applyNumberCheck e check).classes = e.classes := by
  cases check <;> exact List.append_nil _

/-- Nor does a limit on lengths. -/
theorem classes_applyLimit (method : String) (limit : Option Nat) (e : Script) :
    (applyLimit method limit e).classes = e.classes := by
  cases limit with
  | none => rfl
  | some n => exact List.append_nil _

/-- The checks of a string construct a class for each pattern. -/
theorem classes_strings (checks : List StringCheck) (e : Script) :
    (checks.foldl applyStringCheck e).classes =
      e.classes ++ classesFor (checks.flatMap StringCheck.patterns) := by
  induction checks generalizing e with
  | nil => exact (List.append_nil _).symm
  | cons check rest ih =>
      rw [List.foldl_cons, ih, classes_applyStringCheck, List.flatMap_cons, classesFor_append,
        List.append_assoc]

/-- Those of a number construct none. -/
theorem classes_numbers (checks : List NumberCheck) (e : Script) :
    (checks.foldl applyNumberCheck e).classes = e.classes := by
  induction checks generalizing e with
  | nil => rfl
  | cons check rest ih => rw [List.foldl_cons, ih, classes_applyNumberCheck]

/-- Constants construct none. -/
theorem classesOfAll_json (values : List String) :
    Script.classesOfAll (values.map fun s => .json (.str s)) = [] := by
  induction values with
  | nil => rfl
  | cons s rest ih => exact ih

section Classes

variable (binding : String → String)

open Script in
mutual

/-- An expression constructs one class for each pattern of its validator. -/
theorem classes_script : ∀ v : Validator, (script binding v).classes = classesFor v.patterns
  | .reference _ | .deferred _ | .any | .boolean | .null | .literal _ | .record none => rfl
  | .enum values => by
      rw [script, zod, classes, classes, classesOfAll, classes, classesOfAll_json]
      rfl
  | .string checks => by
      rw [script, classes_strings, patterns]
      rfl
  | .number checks => by
      rw [script, classes_numbers]
      rfl
  | .union members => by
      rw [script, patterns, ← classes_scripts members]
      simp [zod, classes, classesOfAll]
  | .intersection left right => by
      rw [script, patterns, classesFor_append, ← classes_script left, ← classes_script right]
      simp [zod, classes, classesOfAll]
  | .array items minItems maxItems => by
      rw [script, classes_applyLimit, classes_applyLimit, patterns, ← classes_script items]
      simp [zod, classes, classesOfAll]
  | .record (some values) => by
      rw [script, patterns, ← classes_script values]
      simp [zod, classes, classesOfAll]
  | .object fields extra => by
      rw [script, classes_applyExtra extra, patterns, classesFor_append,
        ← classes_scriptFields fields]
      simp [zod, classes, classesOfAll]
  | .optional inner => by
      rw [script, patterns, ← classes_script inner]
      simp [chain, classes, classesOfAll]
  | .nullable inner => by
      rw [script, patterns, ← classes_script inner]
      simp [chain, classes, classesOfAll]

/-- Several validators construct what each does. -/
theorem classes_scripts : ∀ vs : List Validator,
    classesOfAll (scripts binding vs) = classesFor (patternsOfMembers vs)
  | [] => rfl
  | v :: rest => by
      rw [scripts, classesOfAll, patternsOfMembers, classesFor_append, classes_script v,
        classes_scripts rest]

/-- So do the fields of an object. -/
theorem classes_scriptFields : ∀ fields : List (String × Validator),
    classesOfFields (scriptFields binding fields) = classesFor (patternsOfFields fields)
  | [] => rfl
  | (name, v) :: rest => by
      rw [scriptFields, classesOfFields, patternsOfFields, classesFor_append, classes_script v,
        classes_scriptFields rest]

/-- So does the treatment of other properties, after the object. -/
theorem classes_applyExtra (extra : Extra Validator) (e : Script) :
    (applyExtra binding extra e).classes = e.classes ++ classesFor (patternsOfExtra extra) := by
  cases extra with
  | unspecified | forbidden | unrestricted =>
      simp [applyExtra, chain, classes, classesOfAll, patternsOfExtra]
  | typed values =>
      rw [patternsOfExtra, ← classes_script values]
      simp [applyExtra, chain, classes, classesOfAll]

end

/-- Apart from the namespace, an expression takes `RegExp` from outside, if it has a pattern. -/
theorem mem_outside_script_iff {v : Validator} {name : String} (h : name ≠ "z") :
    name ∈ (script binding v).outside ↔ name = "RegExp" ∧ ∃ pattern, pattern ∈ v.patterns := by
  rw [Script.outside, List.mem_append, classes_script, mem_classesFor_iff]
  refine or_iff_right fun hmem => ?_
  exact h (of_decide_eq_true (List.mem_filter.mp hmem).2)

end Classes

end Validator

/-- Where the namespace is not bound again, it is not captured; what is captured is the class, and
only where there is a pattern. -/
theorem Module.captures_class_iff {m : Module} (h : "z" ∉ m.importedNames ++ m.exports)
    {name : String} :
    m.Captures name ↔ name = "RegExp" ∧ "RegExp" ∈ m.importedNames ++ m.exports ∧
      ∃ pattern, ∃ d ∈ m.declarations, pattern ∈ d.validator.patterns := by
  constructor
  · rintro ⟨⟨d, hd, houtside⟩, hbound⟩
    have hne : name ≠ "z" := fun heq => h (heq ▸ hbound)
    obtain ⟨rfl, pattern, hpattern⟩ :=
      (Validator.mem_outside_script_iff m.binding hne).mp houtside
    exact ⟨rfl, hbound, pattern, d, hd, hpattern⟩
  · rintro ⟨rfl, hbound, pattern, d, hd, hpattern⟩
    refine ⟨⟨d, hd, ?_⟩, hbound⟩
    exact (Validator.mem_outside_script_iff m.binding (by decide)).mpr ⟨rfl, pattern, hpattern⟩

/-- Only the component with that name has the identifier `RegExp`. -/
theorem Identifier.ofName_eq_class_iff {name : String} : ofName name = "RegExp" ↔ name = "RegExp" :=
  ⟨fun h => eq_of_ofName_eq h (by decide), by rintro rfl; decide⟩

/-! ### Component modules -/

namespace ComponentGenerator

/-- The validator of a component has the patterns of its shape, and no others. -/
theorem mem_patterns_componentValidator_iff {components : ComponentTable} {name pattern : String}
    {shape : Shape} :
    pattern ∈ (componentValidator components name shape).patterns ↔ pattern ∈ shape.patterns := by
  rw [componentValidator]
  refine Validator.mem_patterns_ofShape_named fun target => ?_
  split <;> rfl

/-- A component's module captures `RegExp` alone, by its own name or by an import, and only if its
shape has a pattern. -/
theorem Binds.captures_iff_needs {components : ComponentTable} {name : String} {c : Component}
    {m : Module} (h : Binds components name c m) {free : String} :
    m.Captures free ↔ free = "RegExp" ∧ (c.name = "RegExp" ∨ Needs components name "RegExp") ∧
      ∃ pattern, pattern ∈ c.shape.patterns := by
  have hpattern : ∀ pattern, (∃ d ∈ m.declarations, pattern ∈ d.validator.patterns) ↔
      pattern ∈ c.shape.patterns := fun pattern => by
    rw [h.declarations]
    simp only [List.mem_singleton, exists_eq_left, mem_patterns_componentValidator_iff]
  have hbound : "RegExp" ∈ m.importedNames ++ m.exports ↔
      c.name = "RegExp" ∨ Needs components name "RegExp" := by
    rw [h.mem_names_iff, or_comm]
    simp only [Identifier.ofName_eq_class_iff, exists_eq_right]
  rw [Module.captures_class_iff h.namespace_not_mem, hbound, exists_congr hpattern]

end ComponentGenerator

/-! ### Operation modules -/

namespace OperationModule

/-- Whether the validator of a request body has the pattern. A reference has none, anything else has
those of all that it leads to. -/
def RequestHas (components : ComponentTable) : Shape → String → Prop
  | .reference _, _ => False
  | body, pattern => body.LeadsToPattern components pattern

/-- Whether the validator of a response body has the pattern. As for requests, but an object has
only its own patterns. -/
def ResponseHas (components : ComponentTable) : Option Shape → String → Prop
  | none, _ => False
  | some (.reference _), _ => False
  | some (.object properties required extra), pattern =>
    pattern ∈ (Shape.object properties required extra).patterns
  | some body, pattern => body.LeadsToPattern components pattern

/-- Whether one of the bodies of an operation brings the pattern into the module. -/
def Has (components : ComponentTable) (o : OperationRecord) (pattern : String) : Prop :=
  (∃ body, o.requestBody = some body ∧ RequestHas components body pattern) ∨
    ∃ r ∈ o.responses.values, ResponseHas components r.body pattern

section Bodies

variable {components : ComponentTable} {pattern : String}

/-- The validator of a request body has the patterns that the body brings. -/
theorem mem_patterns_requestValidator_iff {body : Shape} :
    pattern ∈ (requestValidator ⟨components, none⟩ body).patterns ↔
      RequestHas components body pattern := by
  cases body with
  | reference target => exact List.mem_nil_iff _
  | _ => exact Scope.mem_patterns_convert_inline_iff _ _

/-- That of a response body does, too. -/
theorem mem_patterns_responseValidator_iff {body : Option Shape} :
    pattern ∈ (responseValidator ⟨components, none⟩ body).patterns ↔
      ResponseHas components body pattern := by
  cases body with
  | none => exact List.mem_nil_iff _
  | some body =>
      cases body with
      | reference target => exact List.mem_nil_iff _
      | object properties required extra => exact Scope.mem_patterns_convert_named _ _
      | _ => exact Scope.mem_patterns_convert_inline_iff _ _

variable {options : OutputOptions} {o : OperationRecord}

/-- A module has the patterns that one of the operation's bodies brings. -/
theorem exists_declaration_iff :
    (∃ d ∈ (ofOperation components options o).declarations, pattern ∈ d.validator.patterns) ↔
      Has components o pattern := by
  have hrequest : (∃ d ∈ (o.requestBody.map fun body =>
      (⟨none, requestName, requestValidator ⟨components, none⟩ body⟩ : Declaration)).toList,
        pattern ∈ d.validator.patterns) ↔
      ∃ body, o.requestBody = some body ∧ RequestHas components body pattern := by
    simp only [Option.mem_toList, Option.map_eq_some_iff, exists_exists_and_eq_and,
      mem_patterns_requestValidator_iff]
  rw [Has, ← hrequest]
  show (∃ d ∈ _ ++ List.map _ o.responses.entries, _) ↔ _
  simp only [List.mem_append, or_and_right, exists_or, Table.values, List.mem_map,
    exists_exists_and_eq_and, mem_patterns_responseValidator_iff]

/-! ### Names -/

/-- A constant of the module is that of the request body, or that of a response. -/
theorem third_of_mem_locals {name : String} (h : name ∈ OperationModule.locals o) :
    name.toList[2]? = some 'q' ∨ name.toList[2]? = some 's' := by
  rw [OperationModule.locals, mem_distinct] at h
  rcases List.mem_append.mp h with h | h
  · obtain ⟨status, -, rfl⟩ := List.mem_map.mp h
    exact Or.inr (third_responseName status)
  · split at h
    · rw [List.mem_singleton.mp h]
      exact Or.inl rfl
    · exact absurd h List.not_mem_nil

/-- No constant of an operation is called `RegExp`. -/
theorem class_not_mem_locals : "RegExp" ∉ OperationModule.locals o :=
  fun h => by simpa using third_of_mem_locals h

/-- None is called `z`. -/
theorem namespace_not_mem_locals : "z" ∉ OperationModule.locals o :=
  fun h => by simpa using third_of_mem_locals h

/-- A name without underscores is no alias. -/
theorem ofName_eq_of_binding_eq {name word : String} (hname : name ∈ components.keys)
    (hword : '_' ∉ word.toList) (h : (ofOperation components options o).binding name = word) :
    Identifier.ofName name = word := by
  have hbinding : (ofOperation components options o).binding name =
      bindingOf (components.keys.map Identifier.ofName) (OperationModule.locals o)
        (Identifier.ofName name) := bindingUnder_aliases hname
  rw [hbinding, bindingOf] at h
  split at h
  · obtain ⟨n, hn⟩ := exists_freshName_underscore_eq
      (OperationModule.locals o ++ components.keys.map Identifier.ofName) (Identifier.ofName name)
    refine absurd ?_ hword
    rw [← h, hn, toList_underscored]
    simp
  · exact h

/-- The only name that the module takes from outside and can bind is the class, if the component of
that name is imported. -/
theorem class_mem_names_iff {m : Module} (hm : m = ofOperation components options o) :
    "RegExp" ∈ m.importedNames ++ m.exports ↔ ∃ i ∈ m.imports, i.component = "RegExp" := by
  subst hm
  have himport : ∀ i ∈ (ofOperation components options o).imports,
      (ofOperation components options o).binding i.component = "RegExp" ↔
        i.component = "RegExp" := by
    intro i hi
    have hkey := (importsComponents_ofOperation o i hi).1
    constructor
    · intro heq
      exact Identifier.ofName_eq_class_iff.mp (ofName_eq_of_binding_eq hkey (by decide) heq)
    · intro heq
      have hidentifier : Identifier.ofName i.component = "RegExp" :=
        Identifier.ofName_eq_class_iff.mpr heq
      refine (bindingUnder_aliases hkey).trans ?_
      rw [hidentifier, bindingOf, if_neg class_not_mem_locals]
  have hexports : "RegExp" ∉ (ofOperation components options o).exports := fun hmem => by
    obtain ⟨d, hd, heq⟩ := List.mem_map.mp hmem
    exact class_not_mem_locals (heq ▸ mem_locals_of_mem_declarations hd)
  rw [List.mem_append, or_iff_left hexports, Module.importedNames, List.mem_map]
  exact exists_congr fun i => and_congr_right fun hi => himport i hi

/-- So an operation's module binds `z` for nothing else. -/
theorem namespace_not_mem {m : Module} (hm : m = ofOperation components options o) :
    "z" ∉ m.importedNames ++ m.exports := by
  subst hm
  intro hmem
  rcases List.mem_append.mp hmem with hmem | hmem
  · obtain ⟨i, hi, heq⟩ := List.mem_map.mp hmem
    have hkey := (importsComponents_ofOperation o i hi).1
    have hreserved : "z" ∈ Identifier.reserved := by decide
    rw [← ofName_eq_of_binding_eq hkey (by decide) heq] at hreserved
    exact Identifier.ofName_not_mem_reserved _ hreserved
  · obtain ⟨d, hd, heq⟩ := List.mem_map.mp hmem
    exact namespace_not_mem_locals (heq ▸ mem_locals_of_mem_declarations hd)

end Bodies

end OperationModule

/-- **Names from outside.** No module captures the namespace of validators. The module of a
component captures `RegExp` exactly if its shape has a pattern, and it is the component of that name
or needs it. The module of an operation captures `RegExp` exactly if it imports that component and
one of its bodies brings a pattern: its own or, where it is expanded in place, one of a component to
which it leads. -/
theorem captures_iff (components : ComponentTable) (options : OutputOptions)
    (names : List String) :
    let g := ComponentGenerator.ofComponents components options
    (∀ name c, components.get? name = some c →
      ∃ f m, (g.generate [] name (g.requests names .start).2).1 = some f ∧
        f.artifact = .module m ∧
        ∀ free, m.Captures free ↔ free = "RegExp" ∧
          (c.name = "RegExp" ∨ ComponentGenerator.Needs components name "RegExp") ∧
          ∃ pattern, pattern ∈ c.shape.patterns) ∧
      ∀ o, let m := OperationModule.ofOperation components options o
        ∀ free, m.Captures free ↔ free = "RegExp" ∧
          (∃ i ∈ m.imports, i.component = "RegExp") ∧
          ∃ pattern, OperationModule.Has components o pattern := by
  intro g
  refine ⟨fun name c hc => ?_, fun o => ?_⟩
  · obtain ⟨f, m, hf, hm, hbinds⟩ :=
      ComponentGenerator.exists_module_of_get? options hc
    exact ⟨f, m, (ComponentGenerator.generate_requests components options names name).trans hf, hm,
      fun free => hbinds.captures_iff_needs⟩
  · intro m free
    rw [Module.captures_class_iff (OperationModule.namespace_not_mem rfl),
      OperationModule.class_mem_names_iff rfl]
    exact and_congr_right fun _ => and_congr_right fun _ =>
      exists_congr fun _ => OperationModule.exists_declaration_iff

/-- A component with a pattern that is called `RegExp`. -/
theorem captures_class :
    let c : Component := ⟨"RegExp", none, .string ⟨none, some "^a", none, none, []⟩⟩
    let g := ComponentGenerator.ofComponents (.ofList [("RegExp", c)]) .default
    ∃ f m, (g.generate [] "RegExp" .start).1 = some f ∧ f.artifact = .module m ∧
      m.Captures "RegExp" ∧ m.declarations.map m.constant =
        ["export const RegExp = z.string().regex(new RegExp(\"^a\"));\n"] := by
  intro c g
  have hc : (Table.ofList [("RegExp", c)]).get? "RegExp" = some c := rfl
  obtain ⟨f, m, hf, hm, hbinds⟩ :=
    ComponentGenerator.exists_module_of_get? .default hc
  refine ⟨f, m, (ComponentGenerator.generate_start "RegExp").trans hf, hm, ?_, ?_⟩
  · rw [hbinds.captures_iff_needs]
    exact ⟨rfl, Or.inl rfl, "^a", List.mem_singleton_self _⟩
  · let v := componentValidator (.ofList [("RegExp", c)]) "RegExp" c.shape
    have hscript : v.script m.binding = .call (.call (.identifier "z") "string" []) "regex"
      [.construct "RegExp" [.json (.str "^a")]] := rfl
    rw [hbinds.declarations, List.map_singleton, Module.constant, Validator.render, hscript]
    decide +kernel

end OpenApiZod

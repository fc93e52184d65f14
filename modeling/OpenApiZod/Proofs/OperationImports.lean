import OpenApiZod.Proofs.ImportAliases
import OpenApiZod.Proofs.ImportPaths
import OpenApiZod.Proofs.Tables

/-!
# What the modules of operations import

The module of an operation knows a component by its own identifier, or by an alias where that
identifier is one of the module's constants. An alias is fresh (`ne_ofName_of_get?_aliases`), so the
line of an import tells it apart from the identifier that the component's module exports
(`importLine_ofOperation`).

An expression contains, apart from the namespace `z`, exactly the names of the components that its
validator uses (`Validator.bindings_script`). Each of these components has exactly one import, under
that name, and all that is imported is in the table (`import_of_use`).
-/

namespace OpenApiZod

/-! ### Identifiers in expressions -/

namespace Script

mutual

/-- The identifiers in an expression, in the order in which they are written. The names of methods
and of classes are none of them. -/
def identifiers : Script → List String
  | .identifier name => [name]
  | .json _ | .decimal _ | .natural _ => []
  | .call target _ arguments => identifiers target ++ identifiersOfAll arguments
  | .construct _ arguments => identifiersOfAll arguments
  | .list items => identifiersOfAll items
  | .record fields => identifiersOfFields fields
  | .thunk body => identifiers body

/-- The identifiers in expressions. -/
def identifiersOfAll : List Script → List String
  | [] => []
  | e :: rest => identifiers e ++ identifiersOfAll rest

/-- The identifiers in the fields of a record. -/
def identifiersOfFields : List (String × Script) → List String
  | [] => []
  | (_, e) :: rest => identifiers e ++ identifiersOfFields rest

end

/-- Identifiers without those of the namespace of validators. -/
def bindings (identifiers : List String) : List String := identifiers.filter (· ≠ "z")

/-- No identifiers hold no bindings. -/
@[simp] theorem bindings_nil : bindings [] = [] := rfl

/-- The bindings in two lists are those of the one and of the other. -/
@[simp] theorem bindings_append (xs ys : List String) :
    bindings (xs ++ ys) = bindings xs ++ bindings ys :=
  List.filter_append xs ys

/-- The namespace of validators is no binding. -/
@[simp] theorem bindings_namespace (xs : List String) : bindings ("z" :: xs) = bindings xs := rfl

end Script

namespace Validator

/-- A check of a string adds no identifier. -/
theorem identifiers_applyStringCheck (e : Script) (check : StringCheck) :
    (applyStringCheck e check).identifiers = e.identifiers := by
  cases check <;> exact List.append_nil _

/-- Nor does a check of a number. -/
theorem identifiers_applyNumberCheck (e : Script) (check : NumberCheck) :
    (applyNumberCheck e check).identifiers = e.identifiers := by
  cases check <;> exact List.append_nil _

/-- Nor does a limit on a length. -/
theorem identifiers_applyLimit (method : String) (limit : Option Nat) (e : Script) :
    (applyLimit method limit e).identifiers = e.identifiers := by
  cases limit with
  | none => rfl
  | some n => exact List.append_nil _

/-- So neither does a chain of them. -/
theorem identifiers_foldl {check : Type} {apply : Script → check → Script}
    (h : ∀ e c, (apply e c).identifiers = e.identifiers) (checks : List check) (e : Script) :
    (checks.foldl apply e).identifiers = e.identifiers := by
  induction checks generalizing e with
  | nil => rfl
  | cons c rest ih => rw [List.foldl_cons, ih, h]

/-- There is no identifier in quoted texts. -/
theorem identifiersOfAll_json (values : List String) :
    Script.identifiersOfAll (values.map fun s => .json (.str s)) = [] := by
  induction values with
  | nil => rfl
  | cons s rest ih => exact ih

section Names

variable (binding : String → String)

/-- The names of the components in uses, as far as they are not the namespace of validators. -/
def names (uses : List Use) : List String :=
  Script.bindings (uses.map fun use => binding use.target)

/-- The names in two lists of uses are those of the one and of the other. -/
theorem names_append (us us' : List Use) :
    names binding (us ++ us') = names binding us ++ names binding us' := by
  rw [names, List.map_append, Script.bindings_append, names, names]

open Script in
mutual

/-- An expression contains the names of the components that its validator uses, in their order, and
no other identifiers but the namespace. -/
theorem bindings_script : ∀ v : Validator,
    bindings (script binding v).identifiers = names binding (uses v)
  | .reference target => rfl
  | .deferred target => by
      rw [script, uses, names, zod, identifiers, identifiers, identifiersOfAll, identifiers,
        identifiers, identifiersOfAll]
      rfl
  | .any | .boolean | .null | .literal _ => rfl
  | .enum values => by
      rw [script, zod, identifiers, identifiers, identifiersOfAll, identifiers,
        identifiersOfAll_json]
      rfl
  | .string checks => by
      rw [script, identifiers_foldl identifiers_applyStringCheck]
      rfl
  | .number checks => by
      rw [script, identifiers_foldl identifiers_applyNumberCheck]
      rfl
  | .union members => by
      rw [script, uses, ← bindings_scripts members]
      simp [zod, identifiers, identifiersOfAll]
  | .intersection left right => by
      rw [script, uses, names_append, ← bindings_script left, ← bindings_script right]
      simp [zod, identifiers, identifiersOfAll]
  | .array items minItems maxItems => by
      rw [script, identifiers_applyLimit, identifiers_applyLimit, uses, ← bindings_script items]
      simp [zod, identifiers, identifiersOfAll]
  | .record none => rfl
  | .record (some values) => by
      rw [script, uses, ← bindings_script values]
      simp [zod, identifiers, identifiersOfAll]
  | .object fields extra => by
      rw [script, bindings_applyExtra extra, uses, names_append, ← bindings_scriptFields fields]
      simp [zod, identifiers, identifiersOfAll]
  | .optional inner => by
      rw [script, uses, ← bindings_script inner]
      simp [chain, identifiers, identifiersOfAll]
  | .nullable inner => by
      rw [script, uses, ← bindings_script inner]
      simp [chain, identifiers, identifiersOfAll]

/-- The expressions of members hold the names of what the members use, in order. -/
theorem bindings_scripts : ∀ vs : List Validator,
    bindings (identifiersOfAll (scripts binding vs)) = names binding (usesOfMembers vs)
  | [] => rfl
  | v :: rest => by
      rw [scripts, identifiersOfAll, usesOfMembers, bindings_append, names_append,
        bindings_script v, bindings_scripts rest]

/-- The expressions of fields hold the names of what the fields use, in order. -/
theorem bindings_scriptFields : ∀ fields : List (String × Validator),
    bindings (identifiersOfFields (scriptFields binding fields)) =
      names binding (usesOfFields fields)
  | [] => rfl
  | (name, v) :: rest => by
      rw [scriptFields, identifiersOfFields, usesOfFields, bindings_append, names_append,
        bindings_script v, bindings_scriptFields rest]

/-- The treatment of further properties adds the names of what it uses. -/
theorem bindings_applyExtra (extra : Extra Validator) (e : Script) :
    bindings (applyExtra binding extra e).identifiers =
      bindings e.identifiers ++ names binding (usesOfExtra extra) := by
  cases extra with
  | unspecified => exact (List.append_nil _).symm
  | forbidden | unrestricted =>
      simp [applyExtra, chain, identifiers, identifiersOfAll, usesOfExtra, names]
  | typed values =>
      rw [usesOfExtra, ← bindings_script values]
      simp [applyExtra, chain, identifiers, identifiersOfAll]

end

end Names

end Validator

/-! ### Lines of imports -/

/-- The line that imports what another module exports, and binds it to a name of its own. -/
def importText (exported bound specifier : String) : String :=
  "import \x7b " ++ exported ++ (if bound = exported then "" else " as " ++ bound) ++
    " \x7d from \"" ++ specifier ++ "\";\n"

/-- A module imports a component once: from the component's own module, which exports the
component's identifier, and under the name by which the module knows it. -/
structure Module.ImportsOnce (components : ComponentTable) (options : OutputOptions) (m : Module)
    (start name : String) : Prop where
  once : m.imports.filter (·.component = name) = [⟨name, componentSpecifier start name options⟩]
  line : m.importLine ⟨name, componentSpecifier start name options⟩ =
    importText (Identifier.ofName name) (m.binding name) (componentSpecifier start name options)
  exported : ∀ c, components.get? name = some c → c.name = name →
    ∃ f, ((ComponentGenerator.ofComponents components options).generate [] name .start).1 = some f ∧
      f.path = options.componentsDir ++ "/" ++ (pathSegment name ++ "." ++ options.extension) ∧
      ∃ m', f.artifact = .module m' ∧ m'.exports = [Identifier.ofName name]

namespace OperationModule

section Operation

variable {components : ComponentTable} {options : OutputOptions} {o : OperationRecord}

/-- An alias is no component's identifier. -/
theorem ne_ofName_of_get?_aliases {locals : List String} {name other bound : String}
    (h : (aliases components locals).get? name = some bound) (hother : other ∈ components.keys) :
    bound ≠ Identifier.ofName other := by
  rw [aliases, Table.ofList, Table.get?_extend_map, Table.get?_empty,
    Option.ite_none_right_eq_some] at h
  obtain ⟨-, hfresh⟩ := h
  rw [← Option.some.inj hfresh]
  exact ne_of_freshName_eq (List.mem_map_of_mem hother)

/-- The import line of a component names its identifier and the binding under which the module knows
it. -/
theorem importLine_ofOperation {name : String} (hname : name ∈ components.keys)
    (specifier : String) :
    let m := ofOperation components options o
    m.importLine ⟨name, specifier⟩ =
      importText (Identifier.ofName name) (m.binding name) specifier := by
  intro m
  rw [Module.importLine, importText, Module.binding, bindingUnder]
  cases hbound : m.aliases.get? name with
  | none => simp only [Option.getD_none, if_true]
  | some bound =>
      have hne : bound ≠ Identifier.ofName name := ne_ofName_of_get?_aliases hbound hname
      simp only [Option.getD_some, if_neg hne]

/-- The imports are those of certain components, each once. -/
theorem imports_ofOperation (components : ComponentTable) (options : OutputOptions)
    (o : OperationRecord) :
    ∃ names : List String, names.Nodup ∧ (ofOperation components options o).imports =
      names.map fun name =>
        ⟨name, componentSpecifier ("../" ++ options.componentsDir) name options⟩ :=
  ⟨_, (nodup_distinct _).filter _, rfl⟩

/-- A module imports each component that its file lists by exactly one import. -/
theorem filter_imports_ofOperation {group name : String}
    (h : name ∈ (file components options o group).imports) :
    (ofOperation components options o).imports.filter (·.component = name) =
      [⟨name, componentSpecifier ("../" ++ options.componentsDir) name options⟩] := by
  obtain ⟨names, hnodup, himports⟩ := imports_ofOperation components options o
  have hname : name ∈ names := by
    rw [GeneratedFile.imports, file] at h
    simp only [himports, List.map_map] at h
    obtain ⟨other, hother, rfl⟩ := List.mem_map.mp h
    exact hother
  have hfilter : names.filter (· = name) = [name] := by
    rw [List.filter_eq, List.count_eq_one_of_mem hnodup hname]
    rfl
  rw [himports, List.filter_map]
  exact congrArg (List.map _) hfilter

/-- The module generated for a component exports the component's identifier. -/
theorem exports_generate {name : String} {c : Component} (hc : components.get? name = some c)
    (hname : c.name = name) :
    ∃ f, ((ComponentGenerator.ofComponents components options).generate [] name .start).1 = some f ∧
      f.path = options.componentsDir ++ "/" ++ (pathSegment name ++ "." ++ options.extension) ∧
      ∃ m, f.artifact = .module m ∧ m.exports = [Identifier.ofName name] := by
  rw [ComponentGenerator.generate_start, ComponentGenerator.fileOf?, hc]
  subst hname
  exact ⟨_, rfl, rfl, _, rfl, rfl⟩

end Operation

/-- **Imports of operations.** Apart from the namespace, the expressions of an operation's module
contain the names of the components that its validators use, and no other identifiers. Each of these
that is in the table is imported once, from its own module, as what that module exports, and under
the name that stands in the expressions. Nothing is imported that is not in the table. -/
theorem import_of_use (components : ComponentTable) (options : OutputOptions)
    (o : OperationRecord) :
    let m := ofOperation components options o
    (∀ d ∈ m.declarations,
      Script.bindings (d.validator.script m.binding).identifiers =
          Validator.names m.binding d.validator.uses ∧
        ∀ use ∈ d.validator.uses, use.target ∈ components.keys →
          m.ImportsOnce components options ("../" ++ options.componentsDir) use.target) ∧
      ∀ i ∈ m.imports, i.component ∈ components.keys := by
  intro m
  refine ⟨fun d hd => ⟨Validator.bindings_script m.binding d.validator, fun use huse hkey => ?_⟩,
    fun i hi => (importsComponents_ofOperation o i hi).1⟩
  have huse : use ∈ (file components options o "").uses := List.mem_flatMap.mpr ⟨d, hd, huse⟩
  exact {
    once := filter_imports_ofOperation (mem_imports_of_mem_keys huse hkey)
    line := importLine_ofOperation hkey _
    exported := fun c hc hname => exports_generate hc hname }

/-- A request body is expanded down to a component that refers to itself and is called like the
constant of the body. -/
theorem import_of_use_alias :
    let components : ComponentTable := .ofList
      [("Request", ⟨"Request", none, .object [("next", .reference "Request")] [] .unspecified⟩)]
    let body : Shape := .object [("root", .reference "Request")] [] .unspecified
    let m := ofOperation components .default
      ⟨"createPet", none, .post, "/pets", some body, .empty⟩
    (∃ d ∈ m.declarations, ⟨"Request", true⟩ ∈ d.validator.uses) ∧
      m.imports.filter (·.component = "Request") = [⟨"Request", "../_components/Request"⟩] ∧
      m.importLine ⟨"Request", "../_components/Request"⟩ =
        "import \x7b Request as Request_ \x7d from \"../_components/Request\";\n" := by
  intro components body m
  obtain ⟨himports, -⟩ := import_of_use components .default
    ⟨"createPet", none, .post, "/pets", some body, .empty⟩
  have huse : ⟨"Request", true⟩ ∈ (requestValidator ⟨components, none⟩ body).uses := by
    show _ ∈ (Scope.convert ⟨components, none⟩ [] "" true body).uses
    rw [Scope.convert, Validator.uses_ofShape]
    refine List.mem_flatMap.mpr ⟨"Request", List.mem_singleton_self _, ?_⟩
    rw [dif_neg List.not_mem_nil]
    simp only [Bool.not_true, Bool.false_and, Bool.false_eq_true, if_false, if_true]
    split
    · rename_i c hc
      obtain rfl := Option.some.inj hc
      rw [Scope.convert, Validator.uses_ofShape]
      refine List.mem_flatMap.mpr ⟨"Request", List.mem_singleton_self _, ?_⟩
      rw [dif_pos (show "Request" ∈ [] ++ ["Request"] from List.mem_singleton_self _)]
      exact List.mem_singleton_self _
    · rename_i hnone
      exact nomatch hnone
  have hd : (⟨none, requestName, requestValidator ⟨components, none⟩ body⟩ : Declaration) ∈
      m.declarations := List.mem_singleton_self _
  have hrequest := (himports _ hd).2 _ huse (by decide)
  exact ⟨⟨_, hd, huse⟩, hrequest.once, hrequest.line.trans (by decide)⟩

end OperationModule

end OpenApiZod

import OpenApiZod.Proofs.ImportPaths
import OpenApiZod.Proofs.SharedIdentifiers

/-!
# What modules bind

The names bound at the top level of a module are the namespace `z`, the names of its imports and its
constants (`Module.boundNames`). The module of a component imports other components under their own
identifiers, whatever its own constant is called. So a name is bound twice exactly if two components
that it imports share an identifier, or one of them shares the identifier of the component itself
(`nodup_boundNames_iff`). The namespace is never bound again.
-/

namespace OpenApiZod

/-- The names of a module's imports. -/
def Module.importedNames (m : Module) : List String :=
  m.imports.map fun i => m.binding i.component

/-- The names bound at the top level of a module. -/
def Module.boundNames (m : Module) : List String := "z" :: (m.importedNames ++ m.exports)

namespace ComponentGenerator

/-- The module of the component `name` imports `target`. -/
def Needs (components : ComponentTable) (name target : String) : Prop :=
  Refers components name target ∧ name ≠ "" ∧ target ≠ name ∧ target ∈ components.keys

section Bound

variable {components : ComponentTable} {name : String}

/-- The recorded targets that are in the table are the components that a module needs. -/
theorem mem_filter_targetsOf_iff {target : String} :
    target ∈ (targetsOf components name).filter components.contains ↔
      Needs components name target := by
  rw [List.mem_filter, mem_targetsOf_iff, Table.contains_iff, Needs, and_assoc, and_assoc]

/-- A module records no target twice. -/
theorem nodup_targetsOf (components : ComponentTable) (name : String) :
    (targetsOf components name).Nodup := by
  rw [targetsOf]
  split
  · split
    · exact List.nodup_nil
    · exact nodup_distinct _
  · exact List.nodup_nil

/-- `m` is the module of the component `c` with the key `name`, as far as it binds names. -/
structure Binds (components : ComponentTable) (name : String) (c : Component) (m : Module) :
    Prop where
  importedNames : m.importedNames =
    ((targetsOf components name).filter components.contains).map Identifier.ofName
  declarations : m.declarations =
    [⟨none, Identifier.ofName c.name, componentValidator components name c.shape⟩]

/-- Every component of the table has a file, a module that binds what the component needs. -/
theorem exists_module_of_get? (options : OutputOptions) {c : Component}
    (hc : components.get? name = some c) :
    ∃ f m, fileOf? components options name = some f ∧ f.artifact = .module m ∧
      Binds components name c m := by
  rw [fileOf?, hc]
  refine ⟨_, _, rfl, rfl, ⟨?_, rfl⟩⟩
  rw [Module.importedNames, List.map_map]
  exact List.map_congr_left fun _ _ => rfl

namespace Binds

variable {c : Component} {m : Module}

/-- A component module exports the component's own identifier and nothing else. -/
theorem exports (h : Binds components name c m) : m.exports = [Identifier.ofName c.name] := by
  rw [Module.exports, h.declarations]
  rfl

/-- The names that a component module binds are the identifiers of what it needs and its own. -/
theorem mem_names_iff (h : Binds components name c m) {bound : String} :
    bound ∈ m.importedNames ++ m.exports ↔
      (∃ target, Needs components name target ∧ Identifier.ofName target = bound) ∨
        Identifier.ofName c.name = bound := by
  rw [h.importedNames, h.exports, List.mem_append, List.mem_map, List.mem_singleton]
  simp only [mem_filter_targetsOf_iff]
  exact or_congr_right eq_comm

/-- No component has the identifier of the namespace. -/
theorem namespace_not_mem (h : Binds components name c m) :
    "z" ∉ m.importedNames ++ m.exports := by
  have hreserved : "z" ∈ Identifier.reserved := by decide
  rw [h.mem_names_iff]
  rintro (⟨target, -, heq⟩ | heq)
  · exact Identifier.ofName_not_mem_reserved target (heq ▸ hreserved)
  · exact Identifier.ofName_not_mem_reserved c.name (heq ▸ hreserved)

end Binds

end Bound

/-- **Names in component modules.** Whatever has been generated before, a component has a module. It
binds the namespace, the identifiers of the components that it needs and that of the component
itself. None of these is the namespace again, and all bound names are different exactly if no two of
the components share an identifier. -/
theorem nodup_boundNames_iff (components : ComponentTable) (options : OutputOptions)
    (names : List String) {name : String} {c : Component} (hc : components.get? name = some c) :
    let g := ofComponents components options
    ∃ f m, (g.generate [] name (g.requests names .start).2).1 = some f ∧ f.artifact = .module m ∧
      (∀ bound, bound ∈ m.importedNames ++ m.exports ↔
        (∃ target, Needs components name target ∧ Identifier.ofName target = bound) ∨
          Identifier.ofName c.name = bound) ∧
      "z" ∉ m.importedNames ++ m.exports ∧
      (m.boundNames.Nodup ↔
        (∀ a b, Needs components name a → Needs components name b →
          Identifier.SharesIdentifier a b → a = b) ∧
        ∀ a, Needs components name a → ¬ Identifier.SharesIdentifier a c.name) := by
  intro g
  obtain ⟨f, m, hf, hm, hbinds⟩ := exists_module_of_get? options hc
  refine ⟨f, m, (generate_requests components options names name).trans hf, hm,
    fun bound => hbinds.mem_names_iff, hbinds.namespace_not_mem, ?_⟩
  have hnodup := (nodup_targetsOf components name).filter components.contains
  rw [Module.boundNames, List.nodup_cons, and_iff_right hbinds.namespace_not_mem,
    hbinds.importedNames, hbinds.exports, List.nodup_append, List.nodup_map_iff_inj_on hnodup,
    and_iff_right (List.nodup_singleton _)]
  simp only [mem_filter_targetsOf_iff, List.mem_map, List.mem_singleton, forall_eq,
    Identifier.ofName_eq_ofName_iff, forall_exists_index, and_imp]
  refine and_congr ⟨fun h a b ha hb => h a ha b hb, fun h a ha b hb => h a b ha hb⟩ ?_
  constructor
  · intro h a ha hshares
    exact h _ a ha rfl (Identifier.ofName_eq_ofName_iff.mpr hshares)
  · rintro h _ a ha rfl hshares
    exact h a ha (Identifier.ofName_eq_ofName_iff.mp hshares)

/-- The reserved word `class` gets the underscore that `class-` has already. -/
theorem nodup_boundNames_iff_reserved :
    let pet : Component := ⟨"Pet", none,
      .object [("kind", .reference "class"), ("rank", .reference "class-")] [] .unspecified⟩
    let components : ComponentTable := .ofList [("Pet", pet), ("class", ⟨"class", none, .boolean⟩),
      ("class-", ⟨"class-", none, .null⟩)]
    components.get? "Pet" = some pet ∧
      ∃ f m, ((ofComponents components .default).generate [] "Pet" .start).1 = some f ∧
        f.artifact = .module m ∧ ¬ m.boundNames.Nodup := by
  intro pet components
  have hpet : components.get? "Pet" = some pet := rfl
  obtain ⟨f, m, hf, hm, -, -, hiff⟩ := nodup_boundNames_iff components .default [] hpet
  refine ⟨hpet, f, m, hf, hm, fun hnodup => ?_⟩
  have hplain : Needs components "Pet" "class" :=
    ⟨⟨pet, hpet, by decide⟩, by decide, by decide, by decide⟩
  have hmarked : Needs components "Pet" "class-" :=
    ⟨⟨pet, hpet, by decide⟩, by decide, by decide, by decide⟩
  have hshares : Identifier.SharesIdentifier "class" "class-" :=
    Identifier.ofName_eq_ofName_iff.mp (by decide)
  exact absurd ((hiff.mp hnodup).1 _ _ hplain hmarked hshares) (by decide)

/-- A component whose constant has the name of what it imports. -/
theorem boundNames_of_own_identifier :
    let components : ComponentTable := .ofList
      [("a.b", ⟨"a.b", none, .reference "a-b"⟩), ("a-b", ⟨"a-b", none, .boolean⟩)]
    ∃ f m, ((ofComponents components .default).generate [] "a.b" .start).1 = some f ∧
      f.artifact = .module m ∧ m.boundNames = ["z", "a_b", "a_b"] := by
  intro components
  have hget : components.get? "a.b" = some ⟨"a.b", none, .reference "a-b"⟩ := rfl
  obtain ⟨f, m, hf, hm, hbinds⟩ := exists_module_of_get? .default hget
  refine ⟨f, m, (generate_start "a.b").trans hf, hm, ?_⟩
  rw [Module.boundNames, hbinds.importedNames, hbinds.exports]
  decide +kernel

end ComponentGenerator

end OpenApiZod

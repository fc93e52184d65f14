import OpenApiZod.Proofs.MissingShapes

/-!
# Locality of component modules

The module of a component is generated from a whole table, and the cycle groups that it depends on
are computed from all references in the table. Still only what the component leads to matters:
whether a reference is deferred depends on the paths back from its target, and all of them run among
the names that the component leads to (`reflTransGen_refers_iff`).

So two tables that agree on those names give the same module, whatever else they hold and in
whatever order they hold it (`generate_local`).
-/

open Relation

namespace OpenApiZod

/-! ### Tables that agree -/

/-- What a table says of a component, its name apart. -/
def Component.contents (c : Component) : Option String × Shape := (c.description, c.shape)

/-- Two tables say the same of a name, or neither knows it. -/
def AgreeAt (components components' : ComponentTable) (name : String) : Prop :=
  (components.get? name).map Component.contents = (components'.get? name).map Component.contents

/-- Two tables agree on all that a name leads to in the first. -/
def AgreeFrom (components components' : ComponentTable) (name : String) : Prop :=
  ∀ x, ReflTransGen (Refers components) name x → AgreeAt components components' x

section Agree

variable {components components' : ComponentTable}

/-- Components that are listed under their own names and have equal contents are equal. -/
theorem AgreeAt.get?_eq {name : String} (h : AgreeAt components components' name)
    (hnamed : Named components) (hnamed' : Named components') :
    components.get? name = components'.get? name := by
  rw [AgreeAt] at h
  cases hc : components.get? name with
  | none =>
      rw [hc, Option.map_none, eq_comm, Option.map_eq_none_iff] at h
      exact h.symm
  | some c =>
      rw [hc, Option.map_some, eq_comm, Option.map_eq_some_iff] at h
      obtain ⟨c', hc', hcontents⟩ := h
      have hname : c.name = c'.name := (hnamed name c hc).trans (hnamed' name c' hc').symm
      obtain ⟨hdescription, hshape⟩ := Prod.mk.inj hcontents
      cases c
      cases c'
      rw [hc']
      simp_all

/-- Two tables that agree from a name on hold the same entry under every name that the first table
reaches from it. -/
theorem AgreeFrom.get?_eq {name : String} (h : AgreeFrom components components' name)
    (hnamed : Named components) (hnamed' : Named components') {x : String}
    (hx : ReflTransGen (Refers components) name x) : components.get? x = components'.get? x :=
  (h x hx).get?_eq hnamed hnamed'

/-- What a component refers to depends on its own entry in the table only. -/
theorem Refers.iff_of_get?_eq {owner target : String}
    (h : components.get? owner = components'.get? owner) :
    Refers components owner target ↔ Refers components' owner target := by
  rw [Refers, Refers, h]

/-- Where all names that a name leads to are the same, it leads to the same names. -/
theorem reflTransGen_refers_iff {name : String}
    (h : ∀ x, ReflTransGen (Refers components) name x → components.get? x = components'.get? x)
    (x : String) :
    ReflTransGen (Refers components) name x ↔ ReflTransGen (Refers components') name x := by
  constructor
  · intro hx
    induction hx with
    | refl => exact ReflTransGen.refl
    | tail hy hrefers ih => exact ih.tail ((Refers.iff_of_get?_eq (h _ hy)).mp hrefers)
  · intro hx
    induction hx with
    | refl => exact ReflTransGen.refl
    | tail _ hrefers ih => exact ih.tail ((Refers.iff_of_get?_eq (h _ ih)).mpr hrefers)

/-- Tables with the same entries in another order agree everywhere. -/
theorem agreeFrom_of_perm (h : components.entries.Perm components'.entries) (name : String) :
    AgreeFrom components components' name := by
  intro x _
  rw [AgreeAt]
  congr 1
  refine Option.ext fun c => ?_
  rw [← Table.mem_entries_iff, ← Table.mem_entries_iff, h.mem_iff]

end Agree

/-! ### Files -/

namespace ComponentGenerator

section Files

variable {components components' : ComponentTable} {name : String}

/-- The validator of a component depends on what the component leads to. -/
theorem componentValidator_congr {c : Component} (hc : components.get? name = some c)
    (h : ∀ x, ReflTransGen (Refers components) name x → components.get? x = components'.get? x) :
    componentValidator components name c.shape = componentValidator components' name c.shape := by
  refine Validator.ofShape_congr c.shape fun target htarget => ?_
  have hrefers : Refers components name target := ⟨c, hc, htarget⟩
  have hrefers' : Refers components' name target :=
    (Refers.iff_of_get?_eq (h name ReflTransGen.refl)).mp hrefers
  have hback : ReflTransGen (Refers components) target name ↔
      ReflTransGen (Refers components') target name :=
    reflTransGen_refers_iff (fun x hx => h x (hx.head hrefers)) name
  rw [← shared_cycleGroups_iff_leads_back hrefers,
    ← shared_cycleGroups_iff_leads_back hrefers'] at hback
  rw [Bool.eq_iff_iff.mpr hback]

/-- The targets that a module records depend on the entry of its own component only. -/
theorem targetsOf_congr (h : components.get? name = components'.get? name) :
    targetsOf components name = targetsOf components' name := by
  rw [targetsOf, targetsOf, h]

/-- The file of a component depends on what the component leads to. -/
theorem fileOf?_congr (options : OutputOptions)
    (h : ∀ x, ReflTransGen (Refers components) name x → components.get? x = components'.get? x) :
    fileOf? components options name = fileOf? components' options name := by
  have hname : components.get? name = components'.get? name := h name ReflTransGen.refl
  have himports : (targetsOf components name).filter components.contains =
      (targetsOf components' name).filter components'.contains := by
    rw [← targetsOf_congr hname]
    refine List.filter_congr fun target htarget => ?_
    have hget := h target (ReflTransGen.single (mem_targetsOf_iff.mp htarget).1)
    rw [Bool.eq_iff_iff, Table.contains_iff, Table.contains_iff, Table.mem_keys_iff,
      Table.mem_keys_iff, hget]
  rw [fileOf?, fileOf?, ← hname, ← himports]
  cases hc : components.get? name with
  | none => rfl
  | some c =>
      rw [Option.map_some, Option.map_some, ← componentValidator_congr hc h]
      rfl

end Files

/-- **Locality.** Take two tables of documents, and a component of the first. If the tables agree on
all names that the component leads to, a request for it gives the same file over both, whatever has
been requested before. In particular it does if the entries of one table are those of the other in
another order. -/
theorem generate_local (naming naming' : Naming) (options : OutputOptions) (d d' : Document)
    (checked checked' : Checked Api) (h : Api.ofDocument naming d = .ok checked)
    (h' : Api.ofDocument naming' d' = .ok checked') (name : String)
    (hname : name ∈ checked.value.components.keys) (names names' : List String) :
    let components := checked.value.components
    let components' := checked'.value.components
    let g := ofComponents components options
    let g' := ofComponents components' options
    (AgreeFrom components components' name ∨ components.entries.Perm components'.entries) →
      ∃ file, (g.generate [] name (g.requests names .start).2).1 = some file ∧
        (g'.generate [] name (g'.requests names' .start).2).1 = some file := by
  intro components components' g g' hor
  have hagree : AgreeFrom components components' name :=
    hor.elim id fun hperm => agreeFrom_of_perm hperm name
  have hnamed : Named components := Api.named_ofDocument h
  have hnamed' : Named components' := Api.named_ofDocument h'
  have hsome : (fileOf? components options name).isSome = true := isSome_fileOf?_iff.mpr hname
  obtain ⟨file, hfile⟩ := Option.isSome_iff_exists.mp hsome
  refine ⟨file, ?_, ?_⟩
  · rw [generate_requests, hfile]
  · rw [generate_requests, ← fileOf?_congr options fun x hx => hagree.get?_eq hnamed hnamed' hx,
      hfile]

/-- `A` refers to `B`. In the second document `B` comes first, `C` refers to `A` where it was a text
before, and `D` is new: the module of `A` stays as it is. -/
theorem generate_local_unrelated :
    let toB : Schema := .inline
      { Keywords.ofType .object with properties := [("b", .reference "#/components/schemas/B")] }
    let document (schemas : List (String × Schema)) : Document :=
      ⟨"3.0.0", ⟨"Pets", "1"⟩, none, some ⟨.ofList schemas, .empty, .empty⟩⟩
    let d := document [("A", toB), ("B", .inline (.ofType .boolean)),
      ("C", .inline (.ofType .string))]
    let d' := document [("B", .inline (.ofType .boolean)),
      ("C", .reference "#/components/schemas/A"), ("A", toB), ("D", .inline (.ofType .null))]
    ∃ checked checked', Api.ofDocument .default d = .ok checked ∧
      Api.ofDocument .default d' = .ok checked' ∧
      AgreeFrom checked.value.components checked'.value.components "A" ∧
      ∃ file, ((ofComponents checked.value.components .default).generate [] "A"
          ((ofComponents checked.value.components .default).requests [] .start).2).1 = some file ∧
        ((ofComponents checked'.value.components .default).generate [] "A"
          ((ofComponents checked'.value.components .default).requests ["C"] .start).2).1 =
            some file := by
  intro toB document d d'
  refine ⟨_, _, rfl, rfl, ?_⟩
  have hreach : ∀ x, ReflTransGen (Refers (Api.componentsOf d)) "A" x → x = "A" ∨ x = "B" := by
    intro x hx
    induction hx with
    | refl => exact Or.inl rfl
    | tail _ hrefers ih =>
        obtain ⟨c, hc, htarget⟩ := hrefers
        rcases ih with rfl | rfl
        · obtain rfl := Option.some.inj hc
          exact Or.inr (List.mem_singleton.mp htarget)
        · obtain rfl := Option.some.inj hc
          exact absurd htarget List.not_mem_nil
  have hagree : AgreeFrom (Api.componentsOf d) (Api.componentsOf d') "A" := by
    intro x hx
    rcases hreach x hx with rfl | rfl <;> rfl
  have hname : "A" ∈ (Api.componentsOf d).keys := by decide
  exact ⟨hagree, generate_local .default .default .default d d' _ _ rfl rfl "A" hname [] ["C"]
    (Or.inl hagree)⟩

end ComponentGenerator

end OpenApiZod

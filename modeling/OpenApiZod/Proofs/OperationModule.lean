import OpenApiZod.Module.Operation
import OpenApiZod.Proofs.ComponentFile

/-!
# Operation modules

The module of an operation holds one validator for each body. `BodyUses` says what such a validator
uses, whether the body is a reference, an object that keeps its references, or expanded in place.

The module imports what its validators use as far as it is there (`mem_imports_of_mem_uses`), and
uses everything that its bodies refer to and that is missing (`mem_uses_of_not_mem_keys`).
-/

namespace OpenApiZod

/-! ### Validators of bodies -/

/-- What the validator of a body uses: what it defers is a component, everything else is written in
the body or in a component, and nothing that is missing is left out. -/
structure BodyUses (components : ComponentTable) (body : Shape) (v : Validator) : Prop where
  written : ∀ use ∈ v.uses, use.deferred = true ∧ use.target ∈ components.keys ∨
    use.target ∈ body.references ∨
    use.target ∉ components.keys ∧ ∃ name, Refers components name use.target
  missing : ∀ target ∈ body.references, target ∉ components.keys → ⟨target, false⟩ ∈ v.uses

namespace OperationModule

section Body

variable (components : ComponentTable)

/-- A reference to a component uses that component. -/
theorem bodyUses_reference (target : String) :
    BodyUses components (.reference target) (.reference target) where
  written use huse := by
    obtain rfl := List.mem_singleton.mp huse
    exact Or.inr (Or.inl (List.mem_singleton_self target))
  missing other hother _ := by
    obtain rfl := List.mem_singleton.mp hother
    exact List.mem_singleton_self _

/-- A body that is converted in place uses what is written in it or in the components it runs
through. -/
theorem bodyUses_convert_inline (body : Shape) :
    BodyUses components body (Scope.convert ⟨components, none⟩ [] "" true body) where
  written use huse := by
    rcases Scope.mem_uses_convert_inline _ [] "" body huse with
      ⟨hdeferred, hmem⟩ | ⟨-, hunknown, hwritten⟩
    · exact Or.inl ⟨hdeferred, hmem.resolve_left List.not_mem_nil⟩
    · exact Or.inr (hwritten.imp_right fun hname => ⟨hunknown, hname⟩)
  missing target htarget hunknown :=
    Scope.mem_uses_convert_inline_of_not_mem_keys _ "" htarget List.not_mem_nil hunknown

/-- A body that is converted by names uses what it refers to. -/
theorem bodyUses_convert_named (body : Shape) :
    BodyUses components body (Scope.convert ⟨components, none⟩ [] "" false body) := by
  have huses := Scope.uses_convert_named ⟨components, none⟩ [] "" body
  have hbare : ∀ target, ¬ Scope.Defers ⟨components, none⟩ [] "" target := by
    rintro target (hpath | hcycle)
    · exact List.not_mem_nil hpath
    · exact Bool.false_ne_true hcycle
  refine ⟨fun use huse => ?_, fun target htarget _ => ?_⟩
  · rw [huses] at huse
    obtain ⟨target, htarget, rfl⟩ := List.mem_map.mp huse
    exact Or.inr (Or.inl htarget)
  · rw [huses]
    refine List.mem_map.mpr ⟨target, htarget, ?_⟩
    rw [decide_eq_false (hbare target)]

/-- A request body uses as a body does. -/
theorem bodyUses_requestValidator (body : Shape) :
    BodyUses components body (requestValidator ⟨components, none⟩ body) := by
  unfold requestValidator
  split
  · exact bodyUses_reference components _
  · exact bodyUses_convert_inline components body

/-- A response body uses as a body does. -/
theorem bodyUses_responseValidator (body : Shape) :
    BodyUses components body (responseValidator ⟨components, none⟩ (some body)) := by
  unfold responseValidator
  split
  · rename_i heq
    exact absurd heq (by simp)
  · rename_i heq
    rw [Option.some.inj heq]
    exact bodyUses_reference components _
  · rename_i heq
    rw [Option.some.inj heq]
    exact bodyUses_convert_named components _
  · rename_i heq
    rw [Option.some.inj heq]
    exact bodyUses_convert_inline components _

end Body

section Operation

variable {components : ComponentTable} {options : OutputOptions} {o : OperationRecord}

/-- A declaration is the validator of a body, or that of a response without one. -/
theorem bodyUses_of_mem_declarations {d : Declaration}
    (h : d ∈ (ofOperation components options o).declarations) :
    (∃ body ∈ bodies o, BodyUses components body d.validator) ∨ d.validator = .any := by
  rcases List.mem_append.mp h with h | h
  · obtain ⟨body, hbody, rfl⟩ := Option.map_eq_some_iff.mp (Option.mem_toList.mp h)
    refine Or.inl ⟨body, ?_, bodyUses_requestValidator components body⟩
    exact List.mem_append_left _ (Option.mem_toList.mpr hbody)
  · obtain ⟨⟨status, r⟩, hr, rfl⟩ := List.mem_map.mp h
    cases hbody : r.body with
    | none => exact Or.inr (by simp only [hbody, responseValidator])
    | some body =>
        refine Or.inl ⟨body, List.mem_append_right _ ?_, ?_⟩
        · exact List.mem_filterMap.mpr ⟨r, List.mem_map_of_mem hr, hbody⟩
        · simp only [hbody]
          exact bodyUses_responseValidator components body

/-- Every body has its validator declared. -/
theorem exists_declaration_of_mem_bodies {body : Shape} (h : body ∈ bodies o) :
    ∃ d ∈ (ofOperation components options o).declarations,
      BodyUses components body d.validator := by
  rcases List.mem_append.mp h with h | h
  · refine ⟨⟨none, requestName, requestValidator ⟨components, none⟩ body⟩,
      List.mem_append_left _ ?_, bodyUses_requestValidator components body⟩
    rw [Option.mem_toList, Option.mem_def.mp (Option.mem_toList.mp h)]
    rfl
  · obtain ⟨r, hr, hbody⟩ := List.mem_filterMap.mp h
    obtain ⟨⟨status, r'⟩, hentry, rfl⟩ := List.mem_map.mp hr
    have hv := bodyUses_responseValidator components body
    rw [← show r'.body = some body from hbody] at hv
    exact ⟨_, List.mem_append_right _ (List.mem_map_of_mem hentry), hv⟩

/-- A module imports the components that its bodies refer to and those that its validators defer. -/
theorem mem_imports_file_iff {group target : String} :
    target ∈ (file components options o group).imports ↔
      ((∃ body ∈ bodies o, target ∈ body.references) ∨
        ∃ d ∈ (ofOperation components options o).declarations,
          target ∈ deferredTargets d.validator) ∧ target ∈ components.keys := by
  have himports : (file components options o group).imports =
      (distinct ((bodies o).flatMap Shape.references ++
        (ofOperation components options o).declarations.flatMap fun d =>
          deferredTargets d.validator)).filter components.contains := by
    show (List.map _ (List.filter _ _)).map _ = _
    rw [List.map_map]
    exact List.map_id _
  rw [himports, List.mem_filter, mem_distinct, List.mem_append, List.mem_flatMap,
    List.mem_flatMap, Table.contains_iff]

/-- An operation's module imports all components that it uses. -/
theorem mem_imports_of_mem_keys {group : String} {use : Validator.Use}
    (huse : use ∈ (file components options o group).uses) (hkey : use.target ∈ components.keys) :
    use.target ∈ (file components options o group).imports := by
  obtain ⟨d, hd, huse⟩ := List.mem_flatMap.mp huse
  rw [mem_imports_file_iff]
  rcases bodyUses_of_mem_declarations hd with ⟨body, hbody, hv⟩ | hany
  · rcases hv.written use huse with ⟨hdeferred, -⟩ | hmem | ⟨hunknown, -⟩
    · refine ⟨Or.inr ⟨d, hd, ?_⟩, hkey⟩
      exact List.mem_map_of_mem (List.mem_filter.mpr ⟨huse, hdeferred⟩)
    · exact ⟨Or.inl ⟨body, hbody, hmem⟩, hkey⟩
    · exact absurd hkey hunknown
  · rw [hany] at huse
    exact absurd huse List.not_mem_nil

/-- If all references lead to components, an operation's module imports all that it uses. -/
theorem mem_imports_of_mem_uses {group : String}
    (hbodies : ∀ body ∈ bodies o, ∀ target ∈ body.references, target ∈ components.keys)
    (htable : ∀ name target, Refers components name target → target ∈ components.keys)
    {use : Validator.Use} (huse : use ∈ (file components options o group).uses) :
    use.target ∈ (file components options o group).imports := by
  refine mem_imports_of_mem_keys huse ?_
  obtain ⟨d, hd, huse⟩ := List.mem_flatMap.mp huse
  rcases bodyUses_of_mem_declarations hd with ⟨body, hbody, hv⟩ | hany
  · rcases hv.written use huse with ⟨-, hkey⟩ | hmem | ⟨-, name, hrefers⟩
    · exact hkey
    · exact hbodies body hbody _ hmem
    · exact htable name _ hrefers
  · rw [hany] at huse
    exact absurd huse List.not_mem_nil

/-- An operation's module uses what is missing without importing it. -/
theorem mem_uses_of_not_mem_keys {group : String} {body : Shape} {target : String}
    (hbody : body ∈ bodies o) (htarget : target ∈ body.references)
    (hunknown : target ∉ components.keys) :
    ⟨target, false⟩ ∈ (file components options o group).uses ∧
      target ∉ (file components options o group).imports := by
  obtain ⟨d, hd, hv⟩ := exists_declaration_of_mem_bodies hbody
  refine ⟨List.mem_flatMap.mpr ⟨d, hd, hv.missing target htarget hunknown⟩, fun himports => ?_⟩
  exact hunknown (mem_imports_file_iff.mp himports).2

end Operation

/-! ### Files of operations -/

/-- Every operation has a group. -/
theorem length_groupsFrom (taken ids : List String) :
    (groupsFrom taken ids).1.length = ids.length := by
  induction ids generalizing taken with
  | nil => rfl
  | cons id rest ih =>
      rw [groupsFrom, List.length_cons, List.length_cons, ih]

/-- There are no other files than those of the records, each in a directory of an operation. -/
theorem exists_operation_of_mem_files {api : Api} {options : OutputOptions} {f : GeneratedFile}
    (h : f ∈ (files api options).1) :
    ∃ o ∈ api.operations.values, ∃ group ∈ (groups api options).1,
      file api.components options o group = f := by
  obtain ⟨i, hi, hf⟩ := List.mem_iff_getElem.mp h
  have hlength : i < api.operations.values.length ∧ i < (groups api options).1.length := by
    simp only [files, List.length_zipWith] at hi
    omega
  refine ⟨api.operations.values[i], List.getElem_mem hlength.1,
    (groups api options).1[i], List.getElem_mem hlength.2, ?_⟩
  rw [← hf]
  simp only [files, List.getElem_zipWith]

/-- Every operation has a file. -/
theorem exists_file_of_mem_operations {api : Api} {options : OutputOptions}
    {o : OperationRecord} (h : o ∈ api.operations.values) :
    ∃ group, file api.components options o group ∈ (files api options).1 := by
  obtain ⟨i, hi, rfl⟩ := List.mem_iff_getElem.mp h
  have hlength : (groups api options).1.length = api.operations.values.length := by
    rw [groups, length_groupsFrom, List.length_map]
  have hi' : i < (groups api options).1.length := hlength ▸ hi
  refine ⟨(groups api options).1[i], List.mem_iff_getElem.mpr ⟨i, ?_, ?_⟩⟩
  · simp only [files, List.length_zipWith]
    omega
  · simp only [files, List.getElem_zipWith]

end OperationModule

end OpenApiZod

import OpenApiZod.Module.Operation
import OpenApiZod.Proofs.FreshNames
import OpenApiZod.Proofs.Tables

/-!
# Aliases of imports

A module knows a component by its identifier or, where a constant of the module has that name, by an
alias: the identifier with as few underscores after it as make it neither a constant of the module
nor the identifier of a component (`bindingUnder_aliases`). So no import clashes with a constant.

Aliases are not kept apart from each other. Two of them are the same exactly if one identifier is
the other one with underscores after it, and all that comes between the two is taken
(`freshName_eq_freshName_iff`). `nodup_bindings_iff` says what this means for a whole table.
-/

namespace OpenApiZod

/-! ### Names with underscores after them -/

section Fresh

variable {taken : List String} {name : String}

/-- The first free name among those with one underscore or more. -/
theorem freshName_underscore_eq_iff {n : Nat} :
    freshName taken (name ++ "_") = underscored name (n + 1) ↔
      underscored name (n + 1) ∉ taken ∧ ∀ m < n, underscored name (m + 1) ∈ taken := by
  have hone : name ++ "_" = underscored name 1 := rfl
  have hnext : ∀ m, underscored (underscored name 1) m = underscored name (m + 1) := fun m => by
    rw [underscored_underscored, Nat.add_comm]
  rw [hone, ← hnext n, freshName_eq_iff]
  simp only [hnext]

/-- An alias is the name with at least one underscore. -/
theorem exists_freshName_underscore_eq (taken : List String) (name : String) :
    ∃ n, freshName taken (name ++ "_") = underscored name (n + 1) := by
  obtain ⟨n, hn⟩ := freshName_eq_underscored taken (underscored name 1)
  rw [underscored_underscored, Nat.add_comm] at hn
  exact ⟨n, hn⟩

/-- From a taken name one comes to the same free name as from the name that it continues, if all
that lies between the two is taken. -/
theorem freshName_eq_freshName_iff {d : Nat} (h : underscored name (d + 1) ∈ taken) :
    freshName taken (name ++ "_") = freshName taken (underscored name (d + 1) ++ "_") ↔
      ∀ m < d, underscored name (m + 1) ∈ taken := by
  obtain ⟨n, hn⟩ := exists_freshName_underscore_eq taken (underscored name (d + 1))
  obtain ⟨hfree, hleast⟩ := freshName_underscore_eq_iff.mp hn
  rw [underscored_underscored] at hfree
  rw [hn, underscored_underscored, show d + 1 + (n + 1) = d + 1 + n + 1 from rfl,
    freshName_underscore_eq_iff]
  constructor
  · rintro ⟨-, hall⟩ m hm
    exact hall m (by omega)
  · refine fun hbetween => ⟨hfree, fun m hm => ?_⟩
    rcases Nat.lt_trichotomy m d with hlt | rfl | hlt
    · exact hbetween m hlt
    · exact h
    · obtain ⟨k, rfl⟩ := Nat.exists_eq_add_of_lt hlt
      have hlater := hleast k (by omega)
      rwa [underscored_underscored, show d + 1 + (k + 1) = d + k + 1 + 1 by omega] at hlater

end Fresh

namespace OperationModule

section Aliases

variable {components : ComponentTable} {locals : List String}

/-- The name under which a module knows the components of an identifier, when the identifiers of all
components and the constants of the module are given. -/
def bindingOf (identifiers locals : List String) (identifier : String) : String :=
  if identifier ∈ locals then freshName (locals ++ identifiers) (identifier ++ "_") else identifier

/-- Each component is known under the name that its identifier gets. -/
theorem bindingUnder_aliases {name : String} (h : name ∈ components.keys) :
    bindingUnder (aliases components locals) name =
      bindingOf (components.keys.map Identifier.ofName) locals (Identifier.ofName name) := by
  rw [bindingUnder, aliases, Table.ofList, Table.get?_extend_map, bindingOf]
  by_cases hlocal : Identifier.ofName name ∈ locals
  · rw [if_pos (List.mem_filter.mpr ⟨h, decide_eq_true hlocal⟩), if_pos hlocal, Option.getD_some]
  · have hnone : name ∉ components.keys.filter fun name => Identifier.ofName name ∈ locals :=
      fun hmem => hlocal (of_decide_eq_true (List.mem_filter.mp hmem).2)
    rw [if_neg hnone, if_neg hlocal]
    rfl

variable {identifiers : List String} {identifier identifier' : String}

/-- That name is no constant of the module. -/
theorem bindingOf_not_mem : bindingOf identifiers locals identifier ∉ locals := by
  rw [bindingOf]
  split
  · exact fun hmem => freshName_not_mem _ _ (List.mem_append_left _ hmem)
  · assumption

/-- An alias is the identifier of no component. -/
theorem ne_of_freshName_eq (h : identifier' ∈ identifiers) :
    freshName (locals ++ identifiers) (identifier ++ "_") ≠ identifier' := by
  rintro rfl
  exact freshName_not_mem _ _ (List.mem_append_right _ h)

/-- Between each two identifiers that need aliases and differ in the underscores at their end there
is a name that is not taken. -/
def AliasesApart (identifiers locals : List String) : Prop :=
  ∀ identifier ∈ identifiers, identifier ∈ locals → ∀ d,
    underscored identifier (d + 1) ∈ identifiers → underscored identifier (d + 1) ∈ locals →
      ∃ m < d, underscored identifier (m + 1) ∉ locals ++ identifiers

/-- Aliases that are the same belong to the same identifier. -/
theorem AliasesApart.eq_of_freshName_eq (h : AliasesApart identifiers locals)
    (hmem : identifier ∈ identifiers) (hlocal : identifier ∈ locals)
    (hmem' : identifier' ∈ identifiers) (hlocal' : identifier' ∈ locals)
    (heq : freshName (locals ++ identifiers) (identifier ++ "_") =
      freshName (locals ++ identifiers) (identifier' ++ "_")) : identifier = identifier' := by
  obtain ⟨m, hm⟩ := exists_freshName_underscore_eq (locals ++ identifiers) identifier
  obtain ⟨n, hn⟩ := exists_freshName_underscore_eq (locals ++ identifiers) identifier'
  wlog hle : n ≤ m generalizing identifier identifier' m n
  · exact (this hmem' hlocal' hmem hlocal heq.symm n hn m hm (Nat.le_of_not_le hle)).symm
  have hsame : underscored identifier (m + 1) = underscored identifier' (n + 1) :=
    hm.symm.trans (heq.trans hn)
  obtain ⟨d, rfl⟩ := Nat.exists_eq_add_of_le hle
  -- the alias is no nearer to the first identifier than to the second, so it continues the second
  have hcontinues : underscored identifier d = identifier' := by
    refine underscored_left_injective (n + 1) ?_
    show underscored (underscored identifier d) (n + 1) = underscored identifier' (n + 1)
    rw [← hsame, underscored_underscored]
    congr 1
    omega
  cases d with
  | zero => rwa [underscored_zero] at hcontinues
  | succ d =>
      subst hcontinues
      obtain ⟨k, hk, hfree⟩ := h identifier hmem hlocal d hmem' hlocal'
      have hbetween :=
        (freshName_eq_freshName_iff (List.mem_append_left _ hlocal')).mp heq k hk
      exact absurd hbetween hfree

/-- Different identifiers get different names exactly if their aliases are kept apart. -/
theorem bindingOf_injOn_iff :
    (∀ identifier ∈ identifiers, ∀ identifier' ∈ identifiers,
        bindingOf identifiers locals identifier = bindingOf identifiers locals identifier' →
          identifier = identifier') ↔ AliasesApart identifiers locals := by
  constructor
  · intro hinj identifier hmem hlocal d hmem' hlocal'
    by_contra hnone
    have hbetween : ∀ m < d, underscored identifier (m + 1) ∈ locals ++ identifiers := by
      intro m hm
      by_contra hfree
      exact hnone ⟨m, hm, hfree⟩
    have hsame := (freshName_eq_freshName_iff (List.mem_append_left _ hlocal')).mpr hbetween
    have heq := hinj identifier hmem _ hmem' (by rwa [bindingOf, if_pos hlocal, bindingOf,
      if_pos hlocal'])
    rw [← underscored_zero identifier, underscored_underscored] at heq
    exact absurd (underscored_injective identifier heq) (by omega)
  · intro happart identifier hmem identifier' hmem' heq
    rw [bindingOf, bindingOf] at heq
    by_cases hlocal : identifier ∈ locals <;> by_cases hlocal' : identifier' ∈ locals
    · rw [if_pos hlocal, if_pos hlocal'] at heq
      exact happart.eq_of_freshName_eq hmem hlocal hmem' hlocal' heq
    · rw [if_pos hlocal, if_neg hlocal'] at heq
      exact absurd heq (ne_of_freshName_eq hmem')
    · rw [if_neg hlocal, if_pos hlocal'] at heq
      exact absurd heq.symm (ne_of_freshName_eq hmem)
    · rwa [if_neg hlocal, if_neg hlocal'] at heq

/-- The declarations of a module are its constants. -/
theorem mem_locals_of_mem_declarations {options : OutputOptions} {o : OperationRecord}
    {d : Declaration} (h : d ∈ (ofOperation components options o).declarations) :
    d.name ∈ OperationModule.locals o := by
  rw [OperationModule.locals, mem_distinct]
  rcases List.mem_append.mp h with h | h
  · obtain ⟨body, hbody, rfl⟩ := Option.map_eq_some_iff.mp (Option.mem_toList.mp h)
    rw [hbody]
    exact List.mem_append_right _ (List.mem_singleton_self _)
  · obtain ⟨⟨status, r⟩, hentry, rfl⟩ := List.mem_map.mp h
    exact List.mem_append_left _ (List.mem_map_of_mem (List.mem_map_of_mem hentry))

end Aliases

/-- **Names of imports.** No name under which components are imported is that of a constant of the
module. The names are different from each other exactly if the components' identifiers are, and
between each two of these that need aliases and differ in the underscores at their end there is one
that is not taken. -/
theorem nodup_bindings_iff (components : ComponentTable) (locals : List String) :
    let identifiers := components.keys.map Identifier.ofName
    let bindings := components.keys.map (bindingUnder (aliases components locals))
    (∀ binding ∈ bindings, binding ∉ locals) ∧
      (bindings.Nodup ↔ identifiers.Nodup ∧ AliasesApart identifiers locals) ∧
      ∀ options o, let m := ofOperation components options o
        ∀ i ∈ m.imports, ∀ d ∈ m.declarations, m.binding i.component ≠ d.name := by
  intro identifiers bindings
  have hbindings : bindings = identifiers.map (bindingOf identifiers locals) := by
    rw [List.map_map]
    exact List.map_congr_left fun name hname => bindingUnder_aliases hname
  refine ⟨?_, ⟨fun hnodup => ?_, fun ⟨hnodup, happart⟩ => ?_⟩, ?_⟩
  · rw [hbindings]
    intro binding hbinding
    obtain ⟨identifier, -, rfl⟩ := List.mem_map.mp hbinding
    exact bindingOf_not_mem
  · rw [hbindings] at hnodup
    refine ⟨hnodup.of_map, bindingOf_injOn_iff.mp fun i hi i' hi' heq => ?_⟩
    exact List.inj_on_of_nodup_map hnodup hi hi' heq
  · rw [hbindings]
    exact hnodup.map_on (bindingOf_injOn_iff.mpr happart)
  · intro options o m i hi d hd heq
    have hkey : i.component ∈ components.keys := by
      obtain ⟨name, hname, rfl⟩ := List.mem_map.mp hi
      exact Table.contains_iff.mp (List.mem_filter.mp hname).2
    have hbinding : m.binding i.component ∉ OperationModule.locals o := by
      show bindingUnder (aliases components (OperationModule.locals o)) i.component ∉ _
      rw [bindingUnder_aliases hkey]
      exact bindingOf_not_mem
    exact hbinding (heq ▸ mem_locals_of_mem_declarations hd)

/-- Responses with the statuses `200` and `200_` that refer to components named like their
constants: both components need an alias, and it is the same for both. -/
theorem imports_share_alias :
    let components : ComponentTable := .ofList [("Response200", ⟨"Response200", none, .boolean⟩),
      ("Response200_", ⟨"Response200_", none, .null⟩)]
    let o : OperationRecord := ⟨"listPets", none, .get, "/pets", none, .ofList
      [("200", ⟨"", some (.reference "Response200")⟩),
        ("200_", ⟨"", some (.reference "Response200_")⟩)]⟩
    let m := ofOperation components .default o
    (components.keys.map Identifier.ofName).Nodup ∧
      locals o = ["Response200", "Response200_"] ∧
      m.imports.map (fun i => (i.component, m.binding i.component)) =
        [("Response200", "Response200__"), ("Response200_", "Response200__")] := by
  decide +kernel

end OperationModule

end OpenApiZod

import OpenApiZod.Proofs.CompiledFiles
import OpenApiZod.Proofs.OperationImports
import OpenApiZod.Proofs.ReadBack
import OpenApiZod.Proofs.SharedIdentifiers

/-!
# Bindings and paths

Several components may have one path, and of their modules a compilation keeps the first only. The
others are imported from it, so they have to be called what it exports. They are: a path segment
has the binding of the name that it was made from (`ofName_pathSegment`), so names with one path
have one binding (`ofName_eq_of_componentPath_eq`).

A module may know a component by an alias, but it chooses the alias for the component's identifier
and not for its name (`Module.KnowsByIdentifier`). So all names with one path are imported by one
line (`Api.bindings_of_path`).
-/

namespace OpenApiZod

/-! ### Bindings of names -/

namespace Identifier

/-- A character that may start an identifier may stand anywhere in one. -/
theorem isPart_of_isStart {c : Char} (h : isStart c = true) : isPart c = true := by
  rw [isPart_eq, h, Bool.true_or]

/-- An identifier has characters from U+0024 to U+007A only. -/
theorem toNat_le_of_isIdentifier {s : String} (h : isIdentifier s = true) :
    ∀ c ∈ s.toList, c.toNat ≤ 0x7A := by
  obtain ⟨first, rest, hs, hstart, hrest⟩ := Phrase.exists_cons_of_isIdentifier h
  intro c hc
  have hpart : isPart c = true := by
    rw [hs] at hc
    rcases List.mem_cons.mp hc with rfl | hc
    · exact isPart_of_isStart hstart
    · exact hrest c hc
  have hrange := toNat_of_isPart hpart
  omega

end Identifier

/-- Names with one path have one binding. -/
theorem ofName_eq_of_componentPath_eq {options : OutputOptions} {a b : String}
    (h : componentPath options (pathSegment a) = componentPath options (pathSegment b)) :
    Identifier.ofName a = Identifier.ofName b :=
  ofName_eq_of_pathSegment_eq (componentPath_injective options h)

/-! ### Importing modules -/

/-- What a module calls a component, and the line by which it imports it, depend on the component's
identifier and the specifier. -/
def Module.KnowsByIdentifier (components : ComponentTable) (m : Module) : Prop :=
  ∃ bound : String → String, ∀ name ∈ components.keys,
    m.binding name = bound (Identifier.ofName name) ∧
      ∀ specifier, m.importLine ⟨name, specifier⟩ =
        importText (Identifier.ofName name) (bound (Identifier.ofName name)) specifier

/-- Without aliases, components are called by their identifiers. -/
theorem Module.knowsByIdentifier_of_no_aliases {m : Module} (h : m.aliases = .empty)
    (components : ComponentTable) : m.KnowsByIdentifier components := by
  refine ⟨id, fun name _ => ⟨?_, fun specifier => ?_⟩⟩
  · rw [binding, bindingUnder, h, Table.get?_empty]
    rfl
  · rw [importLine, importText, h, Table.get?_empty, id, if_pos rfl]

/-- Operation modules choose an alias for an identifier, so they call components by their
identifiers. -/
theorem OperationModule.knowsByIdentifier (components : ComponentTable) (options : OutputOptions)
    (o : OperationRecord) : (ofOperation components options o).KnowsByIdentifier components := by
  refine ⟨bindingOf (components.keys.map Identifier.ofName) (locals o), fun name hname => ?_⟩
  have hbinding : (ofOperation components options o).binding name = _ := bindingUnder_aliases hname
  refine ⟨hbinding, fun specifier => ?_⟩
  rw [importLine_ofOperation hname, hbinding]

section Compiled

variable {api : Api} {options : OutputOptions}

/-- What the modules of a compilation import and how they call it. -/
theorem Api.imports_of_mem_files {f : GeneratedFile} (hf : f ∈ (api.compile options).files)
    {m : Module} (hm : f.artifact = .module m) :
    ∃ start, m.ImportsComponents api.components options start ∧
      m.KnowsByIdentifier api.components := by
  rw [files_compile] at hf
  rcases mem_written_iff.mp (mem_of_mem_keepFirst hf) with ⟨name, -, hfile⟩ | hf | ⟨-, rfl⟩
  · obtain ⟨c, -, rfl⟩ := ComponentGenerator.eq_file_of_fileOf? hfile
    obtain rfl := Artifact.module.inj hm
    exact ⟨".", importsComponents_of_imports_eq rfl, Module.knowsByIdentifier_of_no_aliases rfl _⟩
  · obtain ⟨o, -, group, -, rfl⟩ := OperationModule.exists_operation_of_mem_files hf
    obtain rfl := Artifact.module.inj hm
    exact ⟨_, OperationModule.importsComponents_ofOperation o,
      OperationModule.knowsByIdentifier api.components options o⟩
  · exact nomatch hm

/-- A component's module exports what its path makes the binding of its name. -/
theorem Api.exists_module_of_component {f : GeneratedFile} (hf : f ∈ api.componentFiles options) :
    ∃ name m, f.path = componentPath options (pathSegment name) ∧ f.artifact = .module m ∧
      m.exports = [Identifier.ofName name] := by
  obtain ⟨key, -, hfile⟩ := ComponentGenerator.mem_generateTable_iff.mp hf
  obtain ⟨c, -, rfl⟩ := ComponentGenerator.eq_file_of_fileOf? hfile
  exact ⟨c.name, _, rfl, rfl, rfl⟩

/-- **Bindings and paths.** The binding of a name, whatever the name is, is an ASCII identifier, is
no reserved word and so not the namespace `z`, and is the binding of the name's path segment. Names
with one path have one binding. So component modules with one path, of which a compilation keeps
one, export the same binding; and a module that imports components with one path imports them by
one line, under one name. -/
theorem Api.bindings_of_path (api : Api) (options : OutputOptions) :
    (∀ name, Identifier.isIdentifier (Identifier.ofName name) = true ∧
        (∀ c ∈ (Identifier.ofName name).toList, c.toNat < 0x80) ∧
        Identifier.ofName name ∉ Identifier.reserved ∧ Identifier.ofName name ≠ "z" ∧
        Identifier.ofName (pathSegment name) = Identifier.ofName name) ∧
      (∀ a b, componentPath options (pathSegment a) = componentPath options (pathSegment b) →
        Identifier.ofName a = Identifier.ofName b) ∧
      (∀ f ∈ api.componentFiles options, ∀ f' ∈ api.componentFiles options, f.path = f'.path →
        ∃ name m m', f.path = componentPath options (pathSegment name) ∧
          f.artifact = .module m ∧ m.exports = [Identifier.ofName name] ∧
          f'.artifact = .module m' ∧ m'.exports = [Identifier.ofName name]) ∧
      ∀ f ∈ (api.compile options).files, ∀ m, f.artifact = .module m →
        ∀ i ∈ m.imports, ∀ j ∈ m.imports,
          componentPath options (pathSegment i.component) =
              componentPath options (pathSegment j.component) →
            m.binding i.component = m.binding j.component ∧ m.importLine i = m.importLine j := by
  refine ⟨fun name => ?_, fun a b => ofName_eq_of_componentPath_eq, ?_, ?_⟩
  · have hidentifier := Identifier.isIdentifier_ofName name
    have hreserved := Identifier.ofName_not_mem_reserved name
    refine ⟨hidentifier, fun c hc => ?_, hreserved, fun heq => ?_, ofName_pathSegment name⟩
    · have hle := Identifier.toNat_le_of_isIdentifier hidentifier c hc
      omega
    · exact hreserved (heq ▸ by decide)
  · intro f hf f' hf' hpath
    obtain ⟨name, m, hname, hm, hexports⟩ := exists_module_of_component hf
    obtain ⟨name', m', hname', hm', hexports'⟩ := exists_module_of_component hf'
    have hsame : Identifier.ofName name' = Identifier.ofName name :=
      ofName_eq_of_componentPath_eq (hname'.symm.trans (hpath.symm.trans hname))
    exact ⟨name, m, m', hname, hm, hexports, hm', hsame ▸ hexports'⟩
  · intro f hf m hm i hi j hj hpath
    obtain ⟨start, himports, bound, hbound⟩ := imports_of_mem_files hf hm
    obtain ⟨hkey, hspecifier⟩ := himports i hi
    obtain ⟨hkey', hspecifier'⟩ := himports j hj
    have hsame := ofName_eq_of_componentPath_eq hpath
    refine ⟨?_, ?_⟩
    · rw [(hbound _ hkey).1, (hbound _ hkey').1, hsame]
    · have hspecifiers : i.specifier = j.specifier := by
        rw [hspecifier, hspecifier', componentPath_injective options hpath]
      calc m.importLine i
          = importText (Identifier.ofName i.component) (bound (Identifier.ofName i.component))
              i.specifier := (hbound _ hkey).2 i.specifier
        _ = importText (Identifier.ofName j.component) (bound (Identifier.ofName j.component))
              j.specifier := by rw [hsame, hspecifiers]
        _ = m.importLine j := ((hbound _ hkey').2 j.specifier).symm

/-- A slash and an underscore give one path, so the modules of both components export one name. -/
theorem Api.bindings_of_path_slash :
    let api : Api := ⟨⟨"Pets", "1"⟩,
      .ofList [("a/b", ⟨"a/b", none, .boolean⟩), ("a_b", ⟨"a_b", none, .null⟩)], .empty⟩
    let file? := ComponentGenerator.fileOf? api.components .default
    ∃ f f', file? "a/b" = some f ∧ file? "a_b" = some f' ∧ f.path = f'.path ∧
      Identifier.ofName "a/b" = Identifier.ofName "a_b" ∧
      ∃ name m m', f.artifact = .module m ∧ m.exports = [Identifier.ofName name] ∧
        f'.artifact = .module m' ∧ m'.exports = [Identifier.ofName name] := by
  intro api file?
  have hslash : file? "a/b" = some _ := rfl
  have hunderscore : file? "a_b" = some _ := rfl
  have hpath : componentPath .default (pathSegment "a/b") =
      componentPath .default (pathSegment "a_b") := by decide
  obtain ⟨-, hnames, hfiles, -⟩ := bindings_of_path api .default
  obtain ⟨name, m, m', -, hexports⟩ :=
    hfiles _ (ComponentGenerator.mem_generateTable_iff.mpr ⟨"a/b", by decide, hslash⟩)
      _ (ComponentGenerator.mem_generateTable_iff.mpr ⟨"a_b", by decide, hunderscore⟩) hpath
  exact ⟨_, _, hslash, hunderscore, hpath, hnames _ _ hpath, name, m, m', hexports⟩

end Compiled

end OpenApiZod

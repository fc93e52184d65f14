import OpenApiZod.Proofs.ImportPaths
import OpenApiZod.Proofs.StringLiteral

/-!
# Specifiers in the text of a file

A file starts with clauses that each name another module in a string literal. The specifiers go
into the text as they are, so whether the literal is the specifier depends on the names that it was
made of.

`pathSegment` takes backslashes and control characters out of a name, but no quotes. So all
specifiers of an interface's files are read back from the texts if and only if there is a quote in
no name of a component and in no operation id (`specifiersRead_iff`).
-/

namespace OpenApiZod

/-! ### Clauses -/

/-- A clause that names another module: what stands before the module's specifier, and the
specifier. -/
structure FromClause where
  lead : String
  specifier : String
deriving DecidableEq, Repr

/-- The line of a clause. -/
def FromClause.text (c : FromClause) : String := c.lead ++ "\"" ++ c.specifier ++ "\";\n"

/-- The texts of clauses, one after the other. -/
def clausesText (clauses : List FromClause) : String := String.join (clauses.map FromClause.text)

/-- What stands before the specifier of an import. -/
def Module.importLead (m : Module) (i : Import) : String :=
  let local_ := match m.aliases.get? i.component with
    | some other => " as " ++ other
    | none => ""
  "import \x7b " ++ Identifier.ofName i.component ++ local_ ++ " \x7d from "

/-- The clauses of a module: the import of `z` and those of components. -/
def Module.clauses (m : Module) : List FromClause :=
  ⟨"import \x7b z \x7d from ", m.zodModule⟩ ::
    m.imports.map fun i => ⟨m.importLead i, i.specifier⟩

/-- What a module holds below its clauses. -/
def Module.body (m : Module) : String :=
  "\n" ++ m.headerText ++ Text.separated "\n" (m.declarations.map m.declaration)

/-- The clauses of an index: one for each module that it exports. -/
def Index.clauses (i : Index) : List FromClause :=
  i.flat.map (⟨"export * from ", ·⟩) ++
    i.namespaces.map fun (name, specifier) => ⟨"export * as " ++ name ++ " from ", specifier⟩

/-- The clauses of a generated file. -/
def Artifact.clauses : Artifact → List FromClause
  | .module m => m.clauses
  | .index i => i.clauses

/-- What a generated file holds below its clauses. -/
def Artifact.body : Artifact → String
  | .module m => m.body
  | .index _ => ""

/-- The clauses of a text may be written in two turns. -/
theorem clausesText_append (cs ds : List FromClause) :
    clausesText (cs ++ ds) = clausesText cs ++ clausesText ds := by
  rw [clausesText, List.map_append, String.join_append, clausesText, clausesText]

/-- Or the first one before the others. -/
theorem clausesText_cons (c : FromClause) (cs : List FromClause) :
    clausesText (c :: cs) = c.text ++ clausesText cs := by
  rw [clausesText, List.map_cons, String.join_cons, clausesText]

/-- The line of an import is a clause. -/
theorem Module.importLine_eq (m : Module) (i : Import) :
    m.importLine i = FromClause.text ⟨m.importLead i, i.specifier⟩ := by
  have hquote : " \x7d from \"" = " \x7d from " ++ "\"" := by decide
  cases halias : m.aliases.get? i.component with
  | none | some binding =>
      simp only [importLine, FromClause.text, importLead, halias, hquote, String.append_assoc]

/-- A module is its clauses and its body. -/
theorem Module.render_eq (m : Module) : m.render = clausesText m.clauses ++ m.body := by
  have hlines : (m.imports.map fun i => FromClause.mk (m.importLead i) i.specifier).map
      FromClause.text = m.imports.map m.importLine := by
    rw [List.map_map]
    exact List.map_congr_left fun i _ => (m.importLine_eq i).symm
  have hquote : "import \x7b z \x7d from \"" = "import \x7b z \x7d from " ++ "\"" := by decide
  unfold render clauses body
  rw [clausesText_cons, clausesText, hlines, FromClause.text, hquote]
  simp only [String.append_assoc]

/-- An index is nothing but clauses. -/
theorem Index.render_eq (i : Index) : i.render = clausesText i.clauses := by
  have hstar : "export * from \"" = "export * from " ++ "\"" := by decide
  have hquote : " from \"" = " from " ++ "\"" := by decide
  have hflat : (i.flat.map fun specifier => FromClause.mk "export * from " specifier).map
      FromClause.text = i.flat.map fun specifier => "export * from \"" ++ specifier ++ "\";\n" := by
    rw [List.map_map]
    refine List.map_congr_left fun specifier _ => ?_
    simp only [Function.comp_apply, FromClause.text, hstar, String.append_assoc]
  have hnamespaces : (i.namespaces.map fun (name, specifier) =>
        FromClause.mk ("export * as " ++ name ++ " from ") specifier).map FromClause.text =
      i.namespaces.map fun (name, specifier) =>
        "export * as " ++ name ++ " from \"" ++ specifier ++ "\";\n" := by
    rw [List.map_map]
    refine List.map_congr_left fun (name, specifier) _ => ?_
    simp only [Function.comp_apply, FromClause.text, hquote, String.append_assoc]
  unfold render clauses
  rw [clausesText_append, clausesText, clausesText, hflat, hnamespaces]

/-- A file is its clauses and what is below them. -/
theorem Artifact.render_eq (a : Artifact) : a.render = clausesText a.clauses ++ a.body := by
  cases a with
  | module m => exact m.render_eq
  | index i => exact i.render_eq.trans String.append_empty.symm

/-! ### Reading specifiers -/

/-- The specifiers of a file are read from its text: after what stands before it, each is the value
of a string literal, and the clause ends where the literal does. -/
def GeneratedFile.SpecifiersRead (f : GeneratedFile) : Prop :=
  ∀ before c after, f.artifact.clauses = before ++ c :: after →
    ∃ literal, f.content = clausesText before ++ c.lead ++ literal ∧
      StringLiteral.read? literal.toList =
        some (c.specifier, (";\n" ++ clausesText after ++ f.artifact.body).toList)

/-- Specifiers in which no character but a quote needs an escape are read if and only if there is no
quote in them. -/
theorem GeneratedFile.specifiersRead_iff_of_standsForItself {f : GeneratedFile}
    (h : ∀ c ∈ f.artifact.clauses, ∀ d ∈ c.specifier.toList, d ≠ '"' →
      StringLiteral.StandsForItself d) :
    f.SpecifiersRead ↔ ∀ c ∈ f.artifact.clauses, '"' ∉ c.specifier.toList := by
  have hcontent {before after : List FromClause} {c : FromClause}
      (hsplit : f.artifact.clauses = before ++ c :: after) :
      f.content = clausesText before ++ c.lead ++
        ("\"" ++ c.specifier ++ "\"" ++ (";\n" ++ clausesText after ++ f.artifact.body)) := by
    rw [content, Artifact.render_eq, hsplit, clausesText_append, clausesText_cons, FromClause.text]
    simp only [String.append_assoc]
    rfl
  have hliteral (specifier rest : String) : ("\"" ++ specifier ++ "\"" ++ rest).toList =
      '"' :: (specifier.toList ++ '"' :: rest.toList) := by
    simp only [String.toList_append, List.append_assoc]
    rfl
  constructor
  · intro hread c hc
    obtain ⟨before, after, hsplit⟩ := List.append_of_mem hc
    obtain ⟨literal, heq, hvalue⟩ := hread before c after hsplit
    rw [hcontent hsplit, String.append_right_inj] at heq
    rw [← heq, hliteral] at hvalue
    exact (StringLiteral.read?_pasted_iff (h c hc) _).mp hvalue
  · intro hquote before c after hsplit
    have hc : c ∈ f.artifact.clauses := hsplit ▸ List.mem_append_right before List.mem_cons_self
    refine ⟨_, hcontent hsplit, ?_⟩
    rw [hliteral]
    exact (StringLiteral.read?_pasted_iff (h c hc) _).mpr (hquote c hc)

/-! ### Specifiers made of names -/

section Pasted

variable {name specifier : String}

/-- The only character of a path segment that cannot be pasted is a quote. -/
theorem standsForItself_of_mem_pathSegment {c : Char} (hc : c ∈ (pathSegment name).toList)
    (hquote : c ≠ '"') : StringLiteral.StandsForItself c := by
  have hbreaks : breaksSegment c = false := by
    rw [toList_pathSegment] at hc
    split at hc
    · rw [List.eq_of_mem_replicate hc]
      decide
    · obtain ⟨d, -, rfl⟩ := List.mem_map.mp hc
      split
      · decide
      · rename_i h
        exact (Bool.not_eq_true _).mp h
  refine ⟨hquote, ?_, ?_, ?_⟩ <;> (rintro rfl; revert hbreaks; decide)

/-- A name keeps its quotes in its path segment. -/
theorem quote_mem_pathSegment_iff : '"' ∈ (pathSegment name).toList ↔ '"' ∈ name.toList := by
  rw [toList_pathSegment]
  split
  · rename_i hdots
    refine iff_of_false (fun h => absurd (List.eq_of_mem_replicate h) (by decide)) fun h => ?_
    exact absurd (List.all_eq_true.mp hdots _ h) (by decide)
  · rw [List.mem_map]
    constructor
    · rintro ⟨c, hc, heq⟩
      split at heq
      · exact absurd heq (by decide)
      · exact heq ▸ hc
    · exact fun h => ⟨_, h, if_neg (by decide)⟩

/-- A specifier that is a name's path segment with characters around it that can be pasted. -/
def MadeOf (name specifier : String) : Prop :=
  ∃ before after : String, specifier = before ++ pathSegment name ++ after ∧
    ∀ c ∈ before.toList ++ after.toList, StringLiteral.StandsForItself c

/-- In a specifier that is made of a name only quotes need an escape. -/
theorem MadeOf.standsForItself (h : MadeOf name specifier) :
    ∀ c ∈ specifier.toList, c ≠ '"' → StringLiteral.StandsForItself c := by
  obtain ⟨before, after, rfl, haround⟩ := h
  intro c hc hquote
  simp only [String.toList_append, List.mem_append] at hc haround
  rcases hc with (hc | hc) | hc
  · exact haround c (Or.inl hc)
  · exact standsForItself_of_mem_pathSegment hc hquote
  · exact haround c (Or.inr hc)

/-- There is a quote in it exactly if there is one in the name. -/
theorem MadeOf.quote_mem_iff (h : MadeOf name specifier) :
    '"' ∈ specifier.toList ↔ '"' ∈ name.toList := by
  obtain ⟨before, after, rfl, haround⟩ := h
  have hquote : '"' ∉ before.toList ++ after.toList := fun hmem => (haround _ hmem).1 rfl
  rw [List.mem_append, not_or] at hquote
  rw [String.toList_append, String.toList_append, List.mem_append, List.mem_append,
    quote_mem_pathSegment_iff]
  exact ⟨fun hmem => (hmem.resolve_right hquote.2).resolve_left hquote.1,
    fun hmem => Or.inl (Or.inr hmem)⟩

/-- The specifier of a component is made of its name. -/
theorem madeOf_componentSpecifier {start : String}
    (hstart : ∀ c ∈ start.toList, StringLiteral.StandsForItself c) :
    MadeOf name (componentSpecifier start name .default) := by
  refine ⟨start ++ "/", "", rfl, fun c hc => ?_⟩
  rw [List.mem_append, String.toList_append, List.mem_append] at hc
  rcases hc with (hc | hc) | hc
  · exact hstart c hc
  · obtain rfl := List.mem_singleton.mp hc
    decide
  · exact absurd hc List.not_mem_nil

/-- That of an operation's module is made of its id. -/
theorem madeOf_group (n : Nat) :
    MadeOf name ("./" ++ underscored (pathSegment name) n ++ "/" ++ "schema" ++ "") := by
  refine ⟨"./", .ofList (List.replicate n '_') ++ "/schema", ?_, fun c hc => ?_⟩
  · simp only [underscored, String.append_assoc]
    rfl
  · simp only [List.mem_append, String.toList_append, String.toList_ofList] at hc
    rcases hc with hc | hc | hc
    · exact List.all_iff_forall_prop.mp (by decide) c hc
    · rw [List.eq_of_mem_replicate hc]
      decide
    · exact List.all_iff_forall_prop.mp (by decide) c hc

end Pasted

/-! ### Compiled files -/

section Compiled

variable {api : Api}

/-- The names that an interface gives to its components and operations. -/
def Api.names (api : Api) : List String :=
  api.components.keys ++ api.operations.values.map (·.operationId)

/-- The imports of a compiled module come from the table of components. -/
theorem Module.madeOf_of_mem_clauses {m : Module} {names : List String} {start : String}
    (hzod : m.zodModule = "zod")
    (himports : m.imports = names.map fun name => ⟨name, componentSpecifier start name .default⟩)
    (hstart : ∀ c ∈ start.toList, StringLiteral.StandsForItself c) {c : FromClause}
    (hc : c ∈ m.clauses) :
    c.specifier = "zod" ∨ ∃ name ∈ names, MadeOf name c.specifier := by
  rcases List.mem_cons.mp hc with rfl | hc
  · exact Or.inl hzod
  · obtain ⟨i, hi, rfl⟩ := List.mem_map.mp hc
    rw [himports] at hi
    obtain ⟨name, hname, rfl⟩ := List.mem_map.mp hi
    exact Or.inr ⟨name, hname, madeOf_componentSpecifier hstart⟩

/-- Names that pass the filter are components. -/
theorem mem_keys_of_mem_filter {components : ComponentTable} {names : List String} {name : String}
    (h : name ∈ names.filter components.contains) : name ∈ components.keys :=
  Table.contains_iff.mp (List.mem_filter.mp h).2

/-- Apart from the module of `z`, all specifiers of compiled files are made of names. -/
theorem Api.madeOf_of_mem_clauses {f : GeneratedFile} (hf : f ∈ (api.compile .default).files)
    {c : FromClause} (hc : c ∈ f.artifact.clauses) :
    c.specifier = "zod" ∨ ∃ name ∈ api.names, MadeOf name c.specifier := by
  rw [files_compile] at hf
  rcases mem_written_iff.mp (mem_of_mem_keepFirst hf) with ⟨name, -, hfile⟩ | hf | ⟨-, rfl⟩
  · obtain ⟨component, -, rfl⟩ := ComponentGenerator.eq_file_of_fileOf? hfile
    rcases Module.madeOf_of_mem_clauses rfl rfl
        (List.all_iff_forall_prop.mp (by decide)) hc with hzod | ⟨name, hname, hmade⟩
    · exact Or.inl hzod
    · exact Or.inr ⟨name, List.mem_append_left _ (mem_keys_of_mem_filter hname), hmade⟩
  · obtain ⟨o, -, group, -, rfl⟩ := OperationModule.exists_operation_of_mem_files hf
    rcases Module.madeOf_of_mem_clauses rfl rfl
        (List.all_iff_forall_prop.mp (by decide)) hc with hzod | ⟨name, hname, hmade⟩
    · exact Or.inl hzod
    · exact Or.inr ⟨name, List.mem_append_left _ (mem_keys_of_mem_filter hname), hmade⟩
  · refine Or.inr ?_
    rcases List.mem_append.mp hc with hc | hc
    · obtain ⟨specifier, hspecifier, rfl⟩ := List.mem_map.mp hc
      obtain ⟨name, hname, rfl⟩ := List.mem_map.mp (mem_distinct.mp hspecifier)
      exact ⟨name, List.mem_append_left _ hname,
        madeOf_componentSpecifier (List.all_iff_forall_prop.mp (by decide))⟩
    · obtain ⟨⟨ns, specifier⟩, hentry, rfl⟩ := List.mem_map.mp hc
      obtain ⟨group, hgroup, rfl⟩ := List.mem_map.mp (List.of_mem_zip hentry).2
      obtain ⟨id, hid, n, rfl⟩ := OperationModule.exists_id_of_mem_groupsFrom hgroup
      exact ⟨id, List.mem_append_right _ hid, madeOf_group n⟩

/-- The index is the one file that lies in no directory, and so it is always kept. -/
theorem Api.index_mem_files (api : Api) :
    Index.file api .default (OperationModule.groups api .default).1 ∈
      (api.compile .default).files := by
  have hwritten : Index.file api .default (OperationModule.groups api .default).1 ∈
      api.written .default := mem_written_iff.mpr (Or.inr (Or.inr ⟨rfl, rfl⟩))
  obtain ⟨f, hf, hkept, hpath⟩ : ∃ f ∈ api.written .default,
      f ∈ (keepFirst [] (api.written .default ++ [])).1 ∧ f.path = _ :=
    exists_kept_of_mem hwritten List.not_mem_nil
  have hgroup (group : String) (hf : f.group = some group) : False := by
    have hslash : '/' ∈ f.path.toList := by
      rw [GeneratedFile.path, hf]
      simp only [String.toList_append]
      exact List.mem_append_left _ (List.mem_append_right _ (List.mem_singleton_self _))
    have hindex : (Index.file api .default (OperationModule.groups api .default).1).path =
        "index.ts" := rfl
    rw [hpath, hindex] at hslash
    revert hslash
    decide
  rw [files_compile]
  rcases mem_written_iff.mp hf with ⟨name, -, hfile⟩ | hf | ⟨-, rfl⟩
  · obtain ⟨component, -, rfl⟩ := ComponentGenerator.eq_file_of_fileOf? hfile
    exact (hgroup _ rfl).elim
  · obtain ⟨o, -, group, -, rfl⟩ := OperationModule.exists_operation_of_mem_files hf
    exact (hgroup _ rfl).elim
  · rwa [List.append_nil] at hkept

/-- Every id has its directory. -/
theorem OperationModule.exists_mem_groupsFrom (taken : List String) {ids : List String}
    {id : String} (h : id ∈ ids) :
    ∃ n, underscored (pathSegment id) n ∈ (groupsFrom taken ids).1 := by
  induction ids generalizing taken with
  | nil => exact absurd h List.not_mem_nil
  | cons other rest ih =>
      rw [groupsFrom]
      rcases List.mem_cons.mp h with rfl | h
      · obtain ⟨n, hn⟩ := freshName_eq_underscored taken (pathSegment id)
        exact ⟨n, hn ▸ List.mem_cons_self⟩
      · obtain ⟨n, hn⟩ := ih _ h
        exact ⟨n, List.mem_cons_of_mem _ hn⟩

/-- Each id has a namespace. -/
theorem length_namespacesFrom (taken ids : List String) :
    (namespacesFrom taken ids).length = ids.length := by
  induction ids generalizing taken with
  | nil => rfl
  | cons id rest ih => rw [namespacesFrom, List.length_cons, List.length_cons, ih]

/-- The index has a specifier made of each name. -/
theorem Index.exists_madeOf {name : String} (h : name ∈ api.names) :
    ∃ c ∈ (Index.ofApi api .default (OperationModule.groups api .default).1).clauses,
      MadeOf name c.specifier := by
  rcases List.mem_append.mp h with hkey | hid
  · have hflat : componentSpecifier "./_components" name .default ∈
        (Index.ofApi api .default (OperationModule.groups api .default).1).flat :=
      mem_distinct.mpr (List.mem_map.mpr ⟨name, hkey, rfl⟩)
    exact ⟨_, List.mem_append_left _ (List.mem_map.mpr ⟨_, hflat, rfl⟩),
      madeOf_componentSpecifier (List.all_iff_forall_prop.mp (by decide))⟩
  · obtain ⟨n, hn⟩ := OperationModule.exists_mem_groupsFrom ["_components", "index.ts"] hid
    have hsecond : "./" ++ underscored (pathSegment name) n ++ "/" ++ "schema" ++ "" ∈
        (Index.ofApi api .default (OperationModule.groups api .default).1).namespaces.map
          Prod.snd := by
      rw [Index.ofApi, List.map_snd_zip]
      · exact List.mem_map.mpr ⟨_, hn, rfl⟩
      · refine Nat.le_of_eq ?_
        rw [List.length_map, length_namespacesFrom, OperationModule.groups,
          OperationModule.length_groupsFrom]
    obtain ⟨⟨ns, specifier⟩, hentry, rfl⟩ := List.mem_map.mp hsecond
    exact ⟨_, List.mem_append_right _ (List.mem_map.mpr ⟨_, hentry, rfl⟩), madeOf_group n⟩

end Compiled

/-- **Specifiers in texts.** With the default options, all specifiers of the compiled files are read
from the texts of the files if and only if there is a quote in no name of a component and in no
operation id. -/
theorem specifiersRead_iff (api : Api) :
    (∀ f ∈ (api.compile .default).files, f.SpecifiersRead) ↔
      (∀ name ∈ api.components.keys, '"' ∉ name.toList) ∧
        ∀ o ∈ api.operations.values, '"' ∉ o.operationId.toList := by
  have hplain {f : GeneratedFile} (hf : f ∈ (api.compile .default).files) :
      ∀ c ∈ f.artifact.clauses, ∀ d ∈ c.specifier.toList, d ≠ '"' →
        StringLiteral.StandsForItself d := by
    intro c hc d hd hquote
    rcases Api.madeOf_of_mem_clauses hf hc with hzod | ⟨name, -, hmade⟩
    · rw [hzod] at hd
      exact List.all_iff_forall_prop.mp (by decide) d hd
    · exact hmade.standsForItself d hd hquote
  have hnames : (∀ name ∈ api.names, '"' ∉ name.toList) ↔
      (∀ name ∈ api.components.keys, '"' ∉ name.toList) ∧
        ∀ o ∈ api.operations.values, '"' ∉ o.operationId.toList := by
    rw [Api.names, List.forall_mem_append, List.forall_mem_map]
  rw [← hnames]
  constructor
  · -- the index names every module
    intro hread name hname hquote
    obtain ⟨c, hc, hmade⟩ := Index.exists_madeOf hname
    have hindex := Api.index_mem_files api
    exact (GeneratedFile.specifiersRead_iff_of_standsForItself (hplain hindex)).mp
      (hread _ hindex) c hc (hmade.quote_mem_iff.mpr hquote)
  · intro hquote f hf
    rw [GeneratedFile.specifiersRead_iff_of_standsForItself (hplain hf)]
    intro c hc hmem
    rcases Api.madeOf_of_mem_clauses hf hc with hzod | ⟨name, hname, hmade⟩
    · rw [hzod] at hmem
      exact absurd hmem (by decide)
    · exact hquote name hname (hmade.quote_mem_iff.mp hmem)

/-- The literal that names the module of the component `a"b` ends after `a`. -/
theorem not_specifiersRead_of_quote :
    let boolean : Schema := .inline (.ofType .boolean)
    let d : Document := ⟨"3.0.0", ⟨"Pets", "1"⟩, none,
      some ⟨.ofList [("a\"b", boolean)], .empty, .empty⟩⟩
    ∃ checked, Api.ofDocument .default d = .ok checked ∧
      ∃ f ∈ (checked.value.compile .default).files,
        f.content = "export * from \"./_components/a\"b\";\n" ∧
          StringLiteral.read? "\"./_components/a\"b\";\n".toList =
            some ("./_components/a", "b\";\n".toList) ∧
          ¬ f.SpecifiersRead := by
  intro boolean d
  refine ⟨_, rfl, _, Api.index_mem_files _, by decide, by decide, fun hread => ?_⟩
  obtain ⟨literal, hcontent, hvalue⟩ :=
    hread [] ⟨"export * from ", "./_components/a\"b"⟩ [] (by decide)
  have hliteral : literal = "\"./_components/a\"b\";\n" := by
    rw [← String.append_right_inj (clausesText [] ++ "export * from "), ← hcontent]
    decide
  rw [hliteral] at hvalue
  revert hvalue
  decide

end OpenApiZod

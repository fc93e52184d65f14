import OpenApiZod.Proofs.CompiledFiles
import OpenApiZod.Proofs.NameCharacters
import OpenApiZod.Proofs.SharedIdentifiers

/-!
# Names of an index

An index makes the identifiers of components and the namespaces of operations available. A namespace
is the operation's name in camel case, with as many underscores after it as earlier operations have
the same name (`namespacesFrom_eq_numbered`): no such name has an underscore of its own. So the
namespaces are all different.

Components and namespaces are not told apart, and neither are components with one identifier and
different paths. `nodup_names_iff` says when all names of an index are different.
-/

namespace OpenApiZod

open Naming (camelName)

/-! ### Numbered words -/

/-- Words with as many underscores after each as it came before, in the list or in `before`. -/
def numbered (before : List String) : List String → List String
  | [] => []
  | word :: rest => underscored word (before.count word) :: numbered (before ++ [word]) rest

/-- A word without underscores can be told from the underscores after it. -/
theorem underscored_eq_underscored_iff {word word' : String} {m n : Nat}
    (h : '_' ∉ word.toList) (h' : '_' ∉ word'.toList) :
    underscored word m = underscored word' n ↔ word = word' ∧ m = n := by
  have hfilter : ∀ {word : String} (k : Nat), '_' ∉ word.toList →
      (underscored word k).toList.filter (· ≠ '_') = word.toList := by
    intro word k hword
    rw [toList_underscored, List.filter_append, List.filter_replicate]
    simp only [ne_eq, not_true_eq_false, decide_false, Bool.false_eq_true, if_false,
      List.append_nil]
    refine List.filter_eq_self.mpr fun c hc => decide_eq_true ?_
    rintro rfl
    exact hword hc
  constructor
  · intro heq
    have hword : word = word' := by
      rw [← String.toList_inj, ← hfilter m h, heq, hfilter n h']
    subst hword
    exact ⟨rfl, underscored_injective word heq⟩
  · rintro ⟨rfl, rfl⟩
    rfl

/-- `taken` holds each word with fewer underscores than it stands in `before`, and no other word
with underscores. -/
def Numbers (taken before : List String) : Prop :=
  ∀ word, '_' ∉ word.toList → ∀ n, underscored word n ∈ taken ↔ n < before.count word

/-- Before the first word nothing is taken. -/
theorem Numbers.nil : Numbers [] [] := fun _ _ _ =>
  iff_of_false List.not_mem_nil (Nat.not_lt_zero _)

/-- The next word gets as many underscores as it has come before. -/
theorem Numbers.freshName_eq {taken before : List String} (h : Numbers taken before)
    {word : String} (hword : '_' ∉ word.toList) :
    freshName taken word = underscored word (before.count word) := by
  rw [freshName_eq_iff, h word hword]
  exact ⟨Nat.lt_irrefl _, fun m hm => (h word hword m).mpr hm⟩

/-- Then it has come once more. -/
theorem Numbers.snoc {taken before : List String} (h : Numbers taken before) {word : String}
    (hword : '_' ∉ word.toList) :
    Numbers (taken ++ [underscored word (before.count word)]) (before ++ [word]) := by
  intro other hother n
  rw [List.mem_append, List.mem_singleton, h other hother,
    underscored_eq_underscored_iff hother hword, List.count_append, List.count_singleton]
  by_cases heq : other = word
  · subst heq
    simp
    omega
  · simp [heq, Ne.symm heq]

/-- So it goes on with all words of a list. -/
theorem Numbers.append {taken before : List String} (h : Numbers taken before)
    {words : List String} (hwords : ∀ word ∈ words, '_' ∉ word.toList) :
    Numbers (taken ++ numbered before words) (before ++ words) := by
  induction words generalizing taken before with
  | nil => simpa [numbered] using h
  | cons word rest ih =>
      rw [List.forall_mem_cons] at hwords
      rw [numbered, List.append_cons taken, List.append_cons before word rest]
      exact ih (h.snoc hwords.1) hwords.2

/-- Words without underscores are made fresh by being numbered. -/
theorem Numbers.freshNames_eq {taken before : List String} (h : Numbers taken before)
    {words : List String} (hwords : ∀ word ∈ words, '_' ∉ word.toList) :
    freshNames taken words = numbered before words := by
  induction words generalizing taken before with
  | nil => rfl
  | cons word rest ih =>
      rw [List.forall_mem_cons] at hwords
      rw [freshNames, numbered, h.freshName_eq hwords.1, ih (h.snoc hwords.1) hwords.2]

/-- Numbered words are words with underscores. -/
theorem exists_of_mem_numbered {before words : List String} {name : String}
    (h : name ∈ numbered before words) : ∃ word ∈ words, ∃ n, underscored word n = name := by
  induction words generalizing before with
  | nil => exact absurd h List.not_mem_nil
  | cons word rest ih =>
      rcases List.mem_cons.mp h with rfl | h
      · exact ⟨word, List.mem_cons_self, _, rfl⟩
      · obtain ⟨other, hother, n, heq⟩ := ih h
        exact ⟨other, List.mem_cons_of_mem _ hother, n, heq⟩

/-- A word has every number below that of its occurrences, and no other. -/
theorem mem_numbered_iff {words : List String} (hwords : ∀ word ∈ words, '_' ∉ word.toList)
    {name : String} : name ∈ numbered [] words ↔
      ∃ word ∈ words, ∃ n < words.count word, underscored word n = name := by
  have hnumbers : Numbers (numbered [] words) words := Numbers.nil.append hwords
  constructor
  · intro h
    obtain ⟨word, hword, n, rfl⟩ := exists_of_mem_numbered h
    exact ⟨word, hword, n, (hnumbers word (hwords word hword) n).mp h, rfl⟩
  · rintro ⟨word, hword, n, hn, rfl⟩
    exact (hnumbers word (hwords word hword) n).mpr hn

/-! ### Namespaces -/

/-- Namespaces are fresh names made of the ids in camel case. -/
theorem namespacesFrom_eq_freshNames (taken ids : List String) :
    namespacesFrom taken ids = freshNames taken (ids.map camelName) := by
  induction ids generalizing taken with
  | nil => rfl
  | cons id rest ih => rw [namespacesFrom, List.map_cons, freshNames, ih]

/-- The namespace of an operation has as many underscores as earlier operations have its name. -/
theorem namespacesFrom_eq_numbered (ids : List String) :
    namespacesFrom [] ids = numbered [] (ids.map camelName) := by
  rw [namespacesFrom_eq_freshNames]
  refine Numbers.nil.freshNames_eq fun word hword => ?_
  obtain ⟨id, -, rfl⟩ := List.mem_map.mp hword
  exact (Identifier.fits_camelName id).underscore_not_mem

/-! ### Components -/

/-- Each key has a first element. -/
theorem exists_mem_firstsBy {α : Type} (key : α → String) {xs : List α} {x : α} (h : x ∈ xs) :
    ∃ y ∈ firstsBy key [] xs, key y = key x := by
  rw [← List.mem_map, map_firstsBy, mem_distinct]
  exact List.mem_map_of_mem h

/-- Of components with one path the first is exported. The identifiers of those that are exported
are different exactly if only components with one path share an identifier. -/
theorem nodup_identifiers_iff {names : List String} :
    ((firstsBy pathSegment [] names).map Identifier.ofName).Nodup ↔
      ∀ a ∈ names, ∀ b ∈ names, Identifier.SharesIdentifier a b →
        pathSegment a = pathSegment b := by
  have hpaths : ((firstsBy pathSegment [] names).map pathSegment).Nodup := by
    rw [map_firstsBy]
    exact nodup_distinct _
  rw [List.nodup_map_iff_inj_on hpaths.of_map]
  constructor
  · intro h a ha b hb hshares
    -- Both have a component with their path that is exported, and one identifier with it.
    obtain ⟨a', ha', hpath⟩ := exists_mem_firstsBy pathSegment ha
    obtain ⟨b', hb', hpath'⟩ := exists_mem_firstsBy pathSegment hb
    have hsame : Identifier.ofName a' = Identifier.ofName b' := by
      rw [ofName_eq_of_pathSegment_eq hpath, ofName_eq_of_pathSegment_eq hpath',
        Identifier.ofName_eq_ofName_iff]
      exact hshares
    rw [← hpath, ← hpath', h a' ha' b' hb' hsame]
  · intro h a ha b hb hsame
    refine List.inj_on_of_nodup_map hpaths ha hb ?_
    exact h a (mem_of_mem_firstsBy ha) b (mem_of_mem_firstsBy hb)
      (Identifier.ofName_eq_ofName_iff.mp hsame)

/-- The identifiers of the components whose modules an index exports, and the namespaces of its
operations. -/
def Index.names (api : Api) (i : Index) : List String :=
  (firstsBy pathSegment [] api.components.keys).map Identifier.ofName ++ i.namespaces.map Prod.fst

/-- The namespaces of an index are the numbered ids in camel case. -/
theorem Index.map_fst_namespaces (api : Api) (options : OutputOptions) :
    (ofApi api options (OperationModule.groups api options).1).namespaces.map Prod.fst =
      numbered [] (api.operations.values.map fun o => camelName o.operationId) := by
  rw [ofApi, List.map_fst_zip (by rw [List.length_map, length_namespaces]),
    namespacesFrom_eq_numbered, List.map_map]
  rfl

/-- **Names of an index.** An index exports, of the components with one path, the first one flat,
and each operation as a namespace: its name in camel case, numbered by underscores. The namespaces
are all different. All names are different exactly if only components with one path share an
identifier, and no component has the identifier of one of the namespaces: the name of an operation
with fewer underscores than there are operations of that name. -/
theorem Index.nodup_names_iff (api : Api) (options : OutputOptions) :
    let index := ofApi api options (OperationModule.groups api options).1
    let words := api.operations.values.map fun o => camelName o.operationId
    index.flat = (firstsBy pathSegment [] api.components.keys).map (fun name =>
        componentSpecifier ("./" ++ options.componentsDir) name options) ∧
      index.namespaces.map Prod.fst = numbered [] words ∧
      (index.namespaces.map Prod.fst).Nodup ∧
      ((index.names api).Nodup ↔
        (∀ a ∈ api.components.keys, ∀ b ∈ api.components.keys,
          Identifier.SharesIdentifier a b → pathSegment a = pathSegment b) ∧
        ∀ a ∈ api.components.keys, ∀ word ∈ words, ∀ n < words.count word,
          Identifier.ofName a ≠ underscored word n) := by
  intro index words
  have hnamespaces : index.namespaces.map Prod.fst = numbered [] words :=
    map_fst_namespaces api options
  have hwords : ∀ word ∈ words, '_' ∉ word.toList := by
    intro word hword
    obtain ⟨o, -, rfl⟩ := List.mem_map.mp hword
    exact (Identifier.fits_camelName o.operationId).underscore_not_mem
  have hnodup : (index.namespaces.map Prod.fst).Nodup := by
    rw [hnamespaces, ← Numbers.nil.freshNames_eq hwords]
    exact (nodup_freshNames _ _).1
  refine ⟨flat_eq_firstsBy api options _, hnamespaces, hnodup, ?_⟩
  rw [names, List.nodup_append, nodup_identifiers_iff, and_iff_right hnodup, hnamespaces]
  refine and_congr_right fun _ => ?_
  simp only [mem_numbered_iff hwords, List.mem_map]
  constructor
  · intro h a ha word hword n hn
    obtain ⟨a', ha', hpath⟩ := exists_mem_firstsBy pathSegment ha
    exact h _ ⟨a', ha', ofName_eq_of_pathSegment_eq hpath⟩ _ ⟨word, hword, n, hn, rfl⟩
  · rintro h _ ⟨a, ha, rfl⟩ _ ⟨word, hword, n, hn, rfl⟩
    exact h a (mem_of_mem_firstsBy ha) word hword n hn

/-- The component `pets` and the operation `pets` have one name, and so have the components `a.b`
and `a-b`, whose modules are different files. -/
theorem Index.names_clash :
    let api : Api := ⟨⟨"", ""⟩,
      .ofList [("pets", ⟨"pets", none, .boolean⟩), ("a.b", ⟨"a.b", none, .boolean⟩),
        ("a-b", ⟨"a-b", none, .null⟩)],
      .ofList [("pets", ⟨"pets", none, .get, "/pets", none, .empty⟩)]⟩
    let index := ofApi api .default (OperationModule.groups api .default).1
    index.names api = ["pets", "a_b", "a_b", "pets"] ∧
      index.flat = ["./_components/pets", "./_components/a.b", "./_components/a-b"] := by
  decide +kernel

end OpenApiZod

import OpenApiZod.Proofs.MergedOperations

/-!
# Operations named by their routes

An operation without an id is named by its method and its path. The name starts with the verb of
the method, and the verbs of different methods start with different letters, so entries of different
methods never share a name. What follows the verb leaves out the path's parameters and runs its
fixed segments together, so two paths may well spell one name.

Two routes have one name exactly if they sound alike (`operationId_eq_iff`). Entries whose routes do
not sound alike have records of their own; those whose routes do are merged into one record
(`merged_iff_soundsAlike`).
-/

namespace OpenApiZod

/-! ### The parts of a name -/

namespace Naming

/-- Whether the last segment of a path is a parameter. -/
def endsInParameter (path : String) : Bool :=
  (pathSegments path.toList).getLast?.any isParameter

/-- The fixed segments of a path, the last one in the singular where a parameter ends the path. -/
def namedSegments (path : String) : List (List Char) :=
  let resources := (pathSegments path.toList).filter (! isParameter ·)
  if endsInParameter path then
    match resources.getLast? with
    | some last => resources.dropLast ++ [singular last]
    | none => []
  else resources

/-- What a path spells behind the verb: its named segments in capitalised words, run together. -/
def subject (path : String) : String :=
  String.join ((namedSegments path).map fun word => Text.pascal (Text.words (String.ofList word)))

/-- The name of a route is its verb and its subject. -/
theorem ofRoute_eq (method path : String) :
    ofRoute method path = verb method (endsInParameter path) ++ subject path := rfl

/-- The letter that a method's verb starts with. -/
def initial : Method → Bool → Char
  | .get, true => 'g'
  | .get, false => 'l'
  | .post, _ => 'c'
  | .put, _ => 'u'
  | .delete, _ => 'd'
  | .patch, _ => 'p'
  | .options, _ => 'o'
  | .head, _ => 'h'
  | .trace, _ => 't'

/-- A verb starts with its initial. -/
theorem head?_verb (m : Method) (inParameter : Bool) :
    (verb m.token inParameter).toList.head? = some (initial m inParameter) := by
  cases m <;> cases inParameter <;> decide

/-- The letter tells the method and, for `get`, which of its two verbs it is. -/
theorem initial_eq_iff {m m' : Method} {b b' : Bool} :
    initial m b = initial m' b' ↔ m = m' ∧ (m = .get → b = b') := by
  cases m <;> cases m' <;> cases b <;> cases b' <;> decide

/-- Verbs with one initial are the same. -/
theorem verb_eq_of_initial_eq {m m' : Method} {b b' : Bool} (h : initial m b = initial m' b') :
    verb m.token b = verb m'.token b' := by
  obtain ⟨rfl, hget⟩ := initial_eq_iff.mp h
  cases m with
  | get => rw [hget rfl]
  | _ => rfl

/-- A name is read back into its verb and its subject. -/
theorem ofRoute_eq_iff {m m' : Method} {path path' : String} :
    ofRoute m.token path = ofRoute m'.token path' ↔
      m = m' ∧ (m = .get → endsInParameter path = endsInParameter path') ∧
        subject path = subject path' := by
  rw [ofRoute_eq, ofRoute_eq, ← and_assoc, ← initial_eq_iff]
  constructor
  · intro h
    have hinitial : initial m (endsInParameter path) = initial m' (endsInParameter path') := by
      have hhead := congrArg (·.toList.head?) h
      simp only [String.toList_append, List.head?_append, head?_verb, Option.some_or,
        Option.some.injEq] at hhead
      exact hhead
    rw [verb_eq_of_initial_eq hinitial, String.append_right_inj] at h
    exact ⟨hinitial, h⟩
  · rintro ⟨hinitial, hsubject⟩
    rw [verb_eq_of_initial_eq hinitial, hsubject]

end Naming

/-! ### Entries -/

namespace Document.Entry

/-- An entry whose name is that of its route: it has no id, or the strategy does without ids. -/
def NamedByRoute (strategy : NamingStrategy) (e : Document.Entry) : Prop :=
  strategy = .route ∨ e.operation.operationId = none

/-- Two routes that spell one name: they have one method and one subject, and with `get` a parameter
ends both or neither of them. -/
structure SoundsAlike (e e' : Document.Entry) : Prop where
  method : e.method = e'.method
  ending : e.method = .get → Naming.endsInParameter e.path = Naming.endsInParameter e'.path
  subject : Naming.subject e.path = Naming.subject e'.path

variable {strategy : NamingStrategy} {e e' : Document.Entry}

/-- The identifier of an operation that is named by its route. -/
theorem operationId_of_namedByRoute (h : e.NamedByRoute strategy) :
    e.operationId ⟨strategy, .empty⟩ = Naming.ofRoute e.method.token e.path := by
  rcases h with rfl | hnone
  · rfl
  · rw [operationId, Api.operationName, hnone]
    cases strategy <;> rfl

/-- Two operations that are named by their routes have one identifier exactly if their routes sound
alike. -/
theorem operationId_eq_iff (h : e.NamedByRoute strategy) (h' : e'.NamedByRoute strategy) :
    e.operationId ⟨strategy, .empty⟩ = e'.operationId ⟨strategy, .empty⟩ ↔ e.SoundsAlike e' := by
  rw [operationId_of_namedByRoute h, operationId_of_namedByRoute h', Naming.ofRoute_eq_iff]
  exact ⟨fun ⟨hmethod, hending, hsubject⟩ => ⟨hmethod, hending, hsubject⟩,
    fun ⟨hmethod, hending, hsubject⟩ => ⟨hmethod, hending, hsubject⟩⟩

end Document.Entry

/-! ### Records -/

namespace Api

/-- Every entry has its record: the one under its name, which says what the entries with that name
say. -/
theorem exists_recordOf {naming : Naming} {d : Document} {checked : Checked Api}
    (h : ofDocument naming d = .ok checked) {e : Document.Entry} (he : e ∈ d.entries) :
    ∃ r, checked.value.operations.get? (e.operationId naming) = some r ∧
      r.operationId = e.operationId naming ∧
      RecordOf d.components
        (d.entries.filter fun other => other.operationId naming = e.operationId naming) r := by
  rw [operations_eq_addRecords h]
  have hkey : e.operationId naming ∈
      (addRecords .empty (d.entries.map fun e => (e.record naming d.components).value)).keys := by
    rw [keys_addRecords, List.map_map, mem_distinct]
    exact List.mem_map_of_mem he
  obtain ⟨r, hr⟩ := Table.mem_keys_iff.mp hkey
  exact ⟨r, hr, recordOf_of_get? hr⟩

/-- What stands under a name is a value of the table. -/
theorem mem_values_of_get? {records : Table OperationRecord} {id : String} {r : OperationRecord}
    (h : records.get? id = some r) : r ∈ records.values :=
  List.mem_map_of_mem (Table.mem_entries_iff.mpr h)

/-- **Routes that sound alike are merged, and no others.** Without aliases, take two entries of a
document that are named by their routes. Each has a record, which says what the entries with its
name say. If the routes sound alike it is one record. If they do not, the records have different
names and no entry in common; so it is with entries of different methods, be it on one path or on
two. -/
theorem merged_iff_soundsAlike (strategy : NamingStrategy) (d : Document) (checked : Checked Api)
    (h : ofDocument ⟨strategy, .empty⟩ d = .ok checked) (e e' : Document.Entry)
    (he : e ∈ d.entries) (he' : e' ∈ d.entries) (hroute : e.NamedByRoute strategy)
    (hroute' : e'.NamedByRoute strategy) :
    let naming : Naming := ⟨strategy, .empty⟩
    let own (e : Document.Entry) := d.entries.filter fun other =>
      other.operationId naming = e.operationId naming
    ∃ r ∈ checked.value.operations.values, ∃ r' ∈ checked.value.operations.values,
      RecordOf d.components (own e) r ∧ RecordOf d.components (own e') r' ∧
        e ∈ own e ∧ e' ∈ own e' ∧
        (e.SoundsAlike e' → r = r') ∧
        (¬ e.SoundsAlike e' → r.operationId ≠ r'.operationId ∧ (own e).Disjoint (own e')) := by
  intro naming own
  have hself : ∀ e ∈ d.entries, e ∈ own e := fun e he => List.mem_filter.mpr ⟨he, by simp⟩
  have hiff : e.operationId naming = e'.operationId naming ↔ e.SoundsAlike e' :=
    Document.Entry.operationId_eq_iff hroute hroute'
  obtain ⟨r, hr, hname, hown⟩ := exists_recordOf h he
  obtain ⟨r', hr', hname', hown'⟩ := exists_recordOf h he'
  refine ⟨r, mem_values_of_get? hr, r', mem_values_of_get? hr', hown, hown', hself e he,
    hself e' he', fun halike => ?_, fun halike => ⟨?_, ?_⟩⟩
  · rw [hiff.mpr halike] at hr
    exact Option.some.inj (hr.symm.trans hr')
  · rw [hname, hname']
    exact fun heq => halike (hiff.mp heq)
  · intro other hmem hmem'
    simp only [own, List.mem_filter, decide_eq_true_eq] at hmem hmem'
    exact halike (hiff.mp (hmem.2.symm.trans hmem'.2))

/-- `get` on a collection and on one of its items, without ids: two records. -/
theorem merged_iff_soundsAlike_item :
    let operation : Operation := ⟨none, none, none, .empty⟩
    let d : Document := ⟨"3.0.0", ⟨"Users", "1"⟩, some (.ofList
      [("/users", ⟨none, [(.get, operation)]⟩),
        ("/users/\x7bid\x7d", ⟨none, [(.get, operation)]⟩)]), none⟩
    ∃ checked, ofDocument .default d = .ok checked ∧
      ∃ r ∈ checked.value.operations.values, ∃ r' ∈ checked.value.operations.values,
        r.path = "/users" ∧ r'.path = "/users/\x7bid\x7d" ∧ r.operationId ≠ r'.operationId := by
  intro operation d
  refine ⟨_, rfl, ?_⟩
  let users : Document.Entry := ⟨"/users", ⟨none, [(.get, operation)]⟩, .get, operation⟩
  let user : Document.Entry :=
    ⟨"/users/\x7bid\x7d", ⟨none, [(.get, operation)]⟩, .get, operation⟩
  have hentries : d.entries = [users, user] := rfl
  have hname : users.operationId ⟨.operationId, .empty⟩ = "listUsers" := by decide
  have hname' : user.operationId ⟨.operationId, .empty⟩ = "getUser" := by decide
  have hending : ¬ users.SoundsAlike user := fun halike => absurd (halike.ending rfl) (by decide)
  obtain ⟨r, hr, r', hr', hown, hown', -, -, -, hdifferent⟩ :=
    merged_iff_soundsAlike .operationId d _ rfl users user (by simp [hentries])
      (by simp [hentries]) (Or.inr rfl) (Or.inr rfl)
  refine ⟨r, hr, r', hr', ?_, ?_, (hdifferent hending).1⟩
  · obtain ⟨first, hfirst, -, -, hpath⟩ := hown.first
    simp only [hentries, hname, hname', List.filter_cons, List.filter_nil] at hfirst
    rw [hpath, ← Option.some.inj hfirst]
  · obtain ⟨first, hfirst, -, -, hpath⟩ := hown'.first
    simp only [hentries, hname, hname', List.filter_cons, List.filter_nil] at hfirst
    rw [hpath, ← Option.some.inj hfirst]

/-- Messages of all users and messages of one user, both created by `post` and without ids: one
record, which takes a text and says nothing of the truth value that the first route takes. -/
theorem merged_of_parameter_between :
    let takes (type : TypeName) : Operation := ⟨none, none, some (.inline ⟨.ofList
      [("application/json", ⟨some (.inline (.ofType type))⟩)]⟩), .empty⟩
    let d : Document := ⟨"3.0.0", ⟨"Users", "1"⟩, some (.ofList
      [("/users/messages", ⟨none, [(.post, takes .boolean)]⟩),
        ("/users/\x7buserId\x7d/messages", ⟨none, [(.post, takes .string)]⟩)]), none⟩
    ∃ checked, ofDocument .default d = .ok checked ∧
      (∀ e ∈ d.entries, e.NamedByRoute .operationId) ∧
      d.entries.map (fun e => (e.method, e.path)) =
        [(.post, "/users/messages"), (.post, "/users/\x7buserId\x7d/messages")] ∧
      checked.value.operations.keys = ["createUsersMessages"] ∧
      ∃ r, checked.value.operations.get? "createUsersMessages" = some r ∧
        r.requestBody = some (.string ⟨none, none, none, none, []⟩) := by
  intro takes d
  let all : Document.Entry :=
    ⟨"/users/messages", ⟨none, [(.post, takes .boolean)]⟩, .post, takes .boolean⟩
  let own : Document.Entry :=
    ⟨"/users/\x7buserId\x7d/messages", ⟨none, [(.post, takes .string)]⟩, .post, takes .string⟩
  have hentries : d.entries = [all, own] := rfl
  have hname : all.operationId .default = "createUsersMessages" := by decide
  have hname' : own.operationId .default = "createUsersMessages" := by decide
  have hd : ofDocument .default d = .ok _ := rfl
  refine ⟨_, hd, ?_, rfl, ?_, ?_⟩
  · intro e he
    rw [hentries, List.mem_pair] at he
    rcases he with rfl | rfl
    · exact Or.inr rfl
    · exact Or.inr rfl
  · rw [operations_eq_addRecords hd, keys_addRecords, List.map_map, hentries]
    show distinct [all.operationId .default, own.operationId .default] = _
    rw [hname, hname']
    decide
  · have hmem : all ∈ d.entries := by simp [hentries]
    obtain ⟨r, hr, -, hown⟩ := exists_recordOf hd hmem
    rw [hname] at hr hown
    refine ⟨r, hr, hown.requestBody.trans ?_⟩
    simp only [hentries, hname, hname', List.filter_cons, List.filter_nil]
    rfl

end Api

end OpenApiZod

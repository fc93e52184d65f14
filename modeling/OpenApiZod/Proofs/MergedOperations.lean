import Mathlib.Data.List.Forall2
import OpenApiZod.Api
import OpenApiZod.Proofs.Tables

/-!
# Operations that share a name

The records of a document's operations are made by a fold over its entries. A record is found under
the name of its entries, and it is what `OperationRecord.merge` makes of them, one after the other
(`get?_addRecords`). What merging keeps comes from the first of them (`ofFirst_mergeAll`), and what
it takes from the later record if it is there comes from the last one that has it
(`ofLast_mergeAll`).

So the names come in the order in which they are first used, and each record is told from the
entries with its name alone (`operations_ofDocument`).
-/

namespace OpenApiZod

/-! ### Entries of a document -/

/-- An operation of a document and where it stands. -/
structure Document.Entry where
  path : String
  item : PathItem
  method : Method
  operation : Operation

/-- The entries of a document, path by path. -/
def Document.entries (d : Document) : List Document.Entry :=
  ((d.paths.map (·.entries)).getD []).flatMap fun (path, item) =>
    item.operations.map fun (method, operation) => ⟨path, item, method, operation⟩

/-- The name of an entry's operation. -/
def Document.Entry.operationId (naming : Naming) (e : Document.Entry) : String :=
  Api.operationName naming e.path e.method e.operation

/-- What an entry says of its operation. -/
def Document.Entry.record (naming : Naming) (components : Option Components) (e : Document.Entry) :
    Checked OperationRecord :=
  Api.entryRecord naming components e.path e.item e.method e.operation

/-- The records of a document's entries, one by one and in the order of the entries. -/
theorem Api.entryRecords_eq (naming : Naming) (d : Document) :
    entryRecords naming d = d.entries.map (Document.Entry.record naming d.components) := by
  rw [entryRecords, Document.entries, List.map_flatMap]
  refine congrArg (List.flatMap · _) (funext fun (path, item) => ?_)
  rw [List.map_map]
  rfl

/-! ### Documents that were read -/

/-- A traversal that succeeds has answered every element, in order. -/
theorem forall₂_of_mapM {α β : Type} {f : α → Option β} {xs : List α} {ys : List β}
    (h : xs.mapM f = some ys) : List.Forall₂ (fun x y => f x = some y) xs ys := by
  induction xs generalizing ys with
  | nil =>
      obtain rfl : [] = ys := Option.some.inj h
      exact .nil
  | cons x rest ih =>
      rw [List.mapM_cons] at h
      obtain ⟨y, hy, h⟩ := Option.bind_eq_some_iff.mp h
      obtain ⟨ys', hys', h⟩ := Option.bind_eq_some_iff.mp h
      obtain rfl : y :: ys' = ys := Option.some.inj h
      exact .cons hy (ih hys')

/-- Every answer of a traversal that succeeds belongs to an element of the list. -/
theorem exists_mem_of_mapM {α β : Type} {f : α → Option β} {xs : List α} {ys : List β}
    (h : xs.mapM f = some ys) {y : β} (hy : y ∈ ys) : ∃ x ∈ xs, f x = some y := by
  have hall := forall₂_of_mapM h
  clear h
  induction hall with
  | nil => exact absurd hy List.not_mem_nil
  | cons hread _ ih =>
      rcases List.mem_cons.mp hy with rfl | hy
      · exact ⟨_, List.mem_cons_self, hread⟩
      · obtain ⟨x, hx, hread⟩ := ih hy
        exact ⟨x, List.mem_cons_of_mem _ hx, hread⟩

/-- Where every answer that is kept carries the key of its own element, the kept keys are a sublist
of the elements. -/
theorem sublist_of_forall₂ {α β : Type} {xs : List α} {ys : List (Option (α × β))}
    (h : List.Forall₂ (fun x y => ∀ pair ∈ y, pair.1 = x) xs ys) :
    ((ys.filterMap id).map Prod.fst).Sublist xs := by
  induction h with
  | nil => exact List.Sublist.slnil
  | @cons x y _ _ hxy _ ih =>
      cases y with
      | none => exact ih.cons x
      | some pair =>
          rw [← hxy pair rfl]
          exact ih.cons_cons pair.1

section Reading

variable {ν : Type} [Source ν]

/-- A path that was read has its operations in the order of all methods. -/
theorem PathItem.sublist_of_read? {part : ν} {item : PathItem} (h : read? part = some item) :
    (item.operations.map Prod.fst).Sublist Method.all := by
  rw [read?] at h
  obtain ⟨fields, -, h⟩ := Option.bind_eq_some_iff.mp h
  obtain ⟨summary, -, h⟩ := Option.bind_eq_some_iff.mp h
  obtain ⟨operations, hoperations, h⟩ := Option.bind_eq_some_iff.mp h
  obtain rfl := Option.some.inj h
  refine sublist_of_forall₂ ((forall₂_of_mapM hoperations).imp fun method read hread => ?_)
  obtain ⟨operation, -, hread⟩ := Option.bind_eq_some_iff.mp hread
  obtain rfl := Option.some.inj hread
  intro pair hpair
  obtain ⟨_, -, rfl⟩ := Option.map_eq_some_iff.mp hpair
  rfl

/-- Every entry that is read comes from a part that reads as its value. -/
theorem Source.exists_of_readEntries? {α : Type} {read : ν → Option α} {part : ν}
    {entries : List (String × α)} (h : readEntries? read part = some entries) {key : String}
    {value : α} (hmem : (key, value) ∈ entries) : ∃ part', read part' = some value := by
  obtain ⟨parts, -, hparts⟩ := Option.bind_eq_some_iff.mp h
  obtain ⟨_, -, hread⟩ := exists_mem_of_mapM hparts hmem
  obtain ⟨_, hvalue, heq⟩ := Option.map_eq_some_iff.mp hread
  obtain ⟨-, rfl⟩ := Prod.mk.inj heq
  exact ⟨_, hvalue⟩

/-- An optional field that is there was read from a part. -/
theorem Fields.exists_of_readOptional? {α : Type} {fields : Fields ν} {name : String}
    {read : ν → Option α} {value : α} (h : readOptional? fields name read = some (some value)) :
    ∃ part, read part = some value := by
  unfold readOptional? at h
  split at h
  · exact nomatch h
  · split at h
    · exact nomatch h
    · exact nomatch h
    · obtain ⟨_, hread, heq⟩ := Option.map_eq_some_iff.mp h
      exact ⟨_, Option.some.inj heq ▸ hread⟩

/-- All paths of a document that was read have their operations in the order of all methods. -/
theorem Document.sublist_of_read? {part : ν} {d : Document} (h : read? part = some d)
    {paths : Table PathItem} (hpaths : d.paths = some paths) {path : String} {item : PathItem}
    (hitem : paths.get? path = some item) : (item.operations.map Prod.fst).Sublist Method.all := by
  rw [read?] at h
  obtain ⟨fields, -, h⟩ := Option.bind_eq_some_iff.mp h
  obtain ⟨openapi, -, h⟩ := Option.bind_eq_some_iff.mp h
  obtain ⟨info, -, h⟩ := Option.bind_eq_some_iff.mp h
  obtain ⟨paths', hread, h⟩ := Option.bind_eq_some_iff.mp h
  obtain ⟨components, -, h⟩ := Option.bind_eq_some_iff.mp h
  obtain rfl := Option.some.inj h
  obtain rfl : paths' = some paths := hpaths
  obtain ⟨part, hpart⟩ := Fields.exists_of_readOptional? hread
  obtain ⟨entries, hentries, rfl⟩ := Option.map_eq_some_iff.mp hpart
  rcases Table.mem_of_get?_extend hitem with hmem | hempty
  · obtain ⟨part', hpart'⟩ := Source.exists_of_readEntries? hentries hmem
    exact PathItem.sublist_of_read? hpart'
  · exact nomatch hempty

end Reading

/-! ### Records of one name -/

namespace Api

/-- What later records add to the first one. -/
def mergeAll (first : OperationRecord) (later : List OperationRecord) : OperationRecord :=
  later.foldl OperationRecord.merge first

/-- All records of one name in one. -/
def mergeAll? : List OperationRecord → Option OperationRecord
  | [] => none
  | first :: later => some (mergeAll first later)

/-- A record that comes last is merged last. -/
theorem mergeAll_append (first : OperationRecord) (later : List OperationRecord)
    (r : OperationRecord) :
    mergeAll first (later ++ [r]) = OperationRecord.merge (mergeAll first later) r :=
  List.foldl_append

/-- Merging a list with one more record merges that record into the rest, or starts with it. -/
theorem mergeAll?_append (rs : List OperationRecord) (r : OperationRecord) :
    mergeAll? (rs ++ [r]) = some (((mergeAll? rs).map (OperationRecord.merge · r)).getD r) := by
  cases rs with
  | nil => rfl
  | cons first later => exact congrArg some (mergeAll_append first later r)

/-- What merging keeps is what the first record has. -/
theorem ofFirst_mergeAll {α : Type} {f : OperationRecord → α}
    (h : ∀ a b, f (OperationRecord.merge a b) = f a) (first : OperationRecord)
    (later : List OperationRecord) : f (mergeAll first later) = f first := by
  induction later using List.reverseRecOn with
  | nil => rfl
  | append_singleton later r ih => rw [mergeAll_append, h, ih]

/-- What merging takes from the later record if it is there comes from the last record that has
it. -/
theorem ofLast_mergeAll {α : Type} {f : OperationRecord → Option α}
    (h : ∀ a b, f (OperationRecord.merge a b) = (f b).or (f a)) (first : OperationRecord)
    (later : List OperationRecord) :
    f (mergeAll first later) = ((first :: later).filterMap f).getLast? := by
  induction later using List.reverseRecOn with
  | nil => cases hfirst : f first <;> simp [mergeAll, hfirst]
  | append_singleton later r ih =>
      rw [mergeAll_append, h, ih, ← List.cons_append, List.filterMap_append,
        List.getLast?_append]
      cases hr : f r with
      | none => rw [List.filterMap_cons_none hr]; rfl
      | some value => rw [List.filterMap_cons_some hr]; rfl

/-- The statuses come in the order in which the records first declare them. -/
theorem keys_responses_mergeAll (first : OperationRecord) (later : List OperationRecord) :
    (mergeAll first later).responses.keys =
      distinct ((first :: later).flatMap (·.responses.keys)) := by
  induction later using List.reverseRecOn with
  | nil =>
      rw [List.flatMap_singleton]
      exact (distinct_of_nodup first.responses.nodup_keys).symm
  | append_singleton later r ih =>
      have hkeys : (mergeAll first (later ++ [r])).responses.keys =
          extendNew (mergeAll first later).responses.keys r.responses.keys := by
        rw [mergeAll_append]
        exact Table.keys_extend _ _
      rw [hkeys, ih, ← List.cons_append, List.flatMap_append, List.flatMap_singleton,
        distinct_append]

/-! ### The table of records -/

/-- Adds the records of entries, one after the other. -/
def addRecords (records : Table OperationRecord) (rs : List OperationRecord) :
    Table OperationRecord :=
  rs.foldl addRecord records

/-- A record that comes last is added last. -/
theorem addRecords_append (records : Table OperationRecord) (rs : List OperationRecord)
    (r : OperationRecord) :
    addRecords records (rs ++ [r]) = addRecord (addRecords records rs) r :=
  List.foldl_append

/-- Adding a record adds its identifier as a key, once. -/
theorem keys_addRecord (records : Table OperationRecord) (r : OperationRecord) :
    (addRecord records r).keys = appendNew records.keys r.operationId := by
  unfold addRecord
  split <;> exact Table.keys_insert _ _ _

/-- Adding a record changes the entry of its own identifier only, into which it is merged. -/
theorem get?_addRecord (records : Table OperationRecord) (r : OperationRecord) (id : String) :
    (addRecord records r).get? id =
      if id = r.operationId then
        some (((records.get? id).map (OperationRecord.merge · r)).getD r)
      else records.get? id := by
  unfold addRecord
  split
  · rename_i first hfirst
    rw [Table.get?_insert]
    refine ite_congr rfl (fun hid => ?_) fun _ => rfl
    rw [hid, hfirst]
    rfl
  · rename_i hnone
    rw [Table.get?_insert]
    refine ite_congr rfl (fun hid => ?_) fun _ => rfl
    rw [hid, hnone]
    rfl

/-- Names come in the order in which the records first have them. -/
theorem keys_addRecords (rs : List OperationRecord) :
    (addRecords .empty rs).keys = distinct (rs.map (·.operationId)) := by
  induction rs using List.reverseRecOn with
  | nil => rfl
  | append_singleton rs r ih =>
      rw [addRecords_append, keys_addRecord, ih, List.map_append, distinct_append]
      rfl

/-- Under a name stands what its records are together. -/
theorem get?_addRecords (rs : List OperationRecord) (id : String) :
    (addRecords .empty rs).get? id = mergeAll? (rs.filter (·.operationId = id)) := by
  induction rs using List.reverseRecOn with
  | nil => rfl
  | append_singleton rs r ih =>
      -- the last record is merged into what the others with its name are together
      rw [addRecords_append, get?_addRecord, ih, List.filter_append]
      by_cases hid : id = r.operationId
      · have hown : [r].filter (·.operationId = id) = [r] := by simp [hid]
        rw [if_pos hid, hown, mergeAll?_append]
      · have hother : [r].filter (·.operationId = id) = [] := by simp [Ne.symm hid]
        rw [if_neg hid, hother, List.append_nil]

/-! ### Documents -/

section Record

variable (naming : Naming) (components : Option Components) (e : Document.Entry)

/-- The statuses of a record are those of its operation, in order. -/
theorem keys_responses_record :
    (e.record naming components).value.responses.keys = e.operation.responses.keys := by
  show ((e.operation.responses.mapWithKey _).mapWithKey _).keys = _
  rw [Table.keys_mapWithKey, Table.keys_mapWithKey]

/-- Each response of a record is read from the operation's response of that status. -/
theorem get?_responses_record (status : String) :
    (e.record naming components).value.responses.get? status =
      (e.operation.responses.get? status).map fun r => (responseRecord components r).value := by
  show ((e.operation.responses.mapWithKey _).mapWithKey _).get? status = _
  rw [Table.get?_mapWithKey, Table.get?_mapWithKey, Option.map_map]
  rfl

end Record

/-- What the entries of one name say of its operation. Summary, method and path are those of the
first entry, with the summary of the path where it has none. The request body is that of the last
entry whose body has a shape. There is a response for each status that any entry declares, and it is
that of the last entry that declares the status. -/
structure RecordOf (components : Option Components) (own : List Document.Entry)
    (r : OperationRecord) : Prop where
  first : ∃ e, own.head? = some e ∧ r.summary = e.operation.summary.or e.item.summary ∧
    r.method = e.method ∧ r.path = e.path
  requestBody : r.requestBody =
    (own.filterMap fun e => (requestShape components e.operation.requestBody).value).getLast?
  statuses : FirstOccurrences (own.flatMap (·.operation.responses.keys)) r.responses.keys
  responses : ∀ status, r.responses.get? status =
    (own.filterMap (·.operation.responses.get? status)).getLast?.map fun response =>
      (responseRecord components response).value

/-- The merged records of a list of entries make the record of that list. -/
theorem recordOf_mergeAll (naming : Naming) (components : Option Components)
    (first : Document.Entry) (later : List Document.Entry) :
    RecordOf components (first :: later)
      (mergeAll (first.record naming components).value
        (later.map fun e => (e.record naming components).value)) := by
  set record := fun e : Document.Entry => (e.record naming components).value
  have hrecords : record first :: later.map record = (first :: later).map record := rfl
  refine ⟨⟨first, rfl, ?_, ?_, ?_⟩, ?_, ?_, fun status => ?_⟩
  · exact ofFirst_mergeAll (fun _ _ => rfl) (record first) _
  · exact ofFirst_mergeAll (fun _ _ => rfl) (record first) _
  · exact ofFirst_mergeAll (fun _ _ => rfl) (record first) _
  · refine (ofLast_mergeAll (f := (·.requestBody)) (fun _ _ => rfl) (record first) _).trans ?_
    rw [hrecords, List.filterMap_map]
    rfl
  · have hkeys : (mergeAll (record first) (later.map record)).responses.keys =
        distinct ((first :: later).flatMap (·.operation.responses.keys)) := by
      rw [keys_responses_mergeAll, hrecords, List.flatMap_map]
      exact congrArg (fun f => distinct ((first :: later).flatMap f))
        (funext (keys_responses_record naming components))
    rw [hkeys]
    exact firstOccurrences_distinct _
  · rw [ofLast_mergeAll (f := fun r => r.responses.get? status)
      (fun _ _ => Table.get?_extend _ _ _), hrecords, List.filterMap_map, ← List.getLast?_map,
      List.map_filterMap]
    exact congrArg (fun f => ((first :: later).filterMap f).getLast?)
      (funext fun e => get?_responses_record naming components e status)

/-- What stands under a name is what the entries with the name say. -/
theorem recordOf_of_get? {naming : Naming} {components : Option Components}
    {entries : List Document.Entry} {id : String} {r : OperationRecord}
    (h : (addRecords .empty (entries.map fun e => (e.record naming components).value)).get? id =
      some r) :
    r.operationId = id ∧
      RecordOf components (entries.filter fun e => e.operationId naming = id) r := by
  rw [get?_addRecords, List.filter_map] at h
  replace h : mergeAll? ((entries.filter fun e => e.operationId naming = id).map fun e =>
    (e.record naming components).value) = some r := h
  cases hown : entries.filter fun e => e.operationId naming = id with
  | nil =>
      rw [hown] at h
      exact nomatch h
  | cons first later =>
      rw [hown] at h
      obtain rfl := Option.some.inj h
      have hfirst : first ∈ entries.filter fun e => e.operationId naming = id :=
        hown ▸ List.mem_cons_self
      refine ⟨?_, recordOf_mergeAll naming components first later⟩
      exact (ofFirst_mergeAll (fun _ _ => rfl) _ _).trans
        (of_decide_eq_true (List.mem_filter.mp hfirst).2)

/-- The operations of a document are its entries' records, added one after the other to an empty
table. -/
theorem operations_eq_addRecords {naming : Naming} {d : Document} {checked : Checked Api}
    (h : ofDocument naming d = .ok checked) :
    checked.value.operations =
      addRecords .empty (d.entries.map fun e => (e.record naming d.components).value) := by
  rw [ofDocument] at h
  split at h
  · exact nomatch h
  · obtain rfl := Except.ok.inj h
    show (entryRecords naming d).foldl _ _ = _
    rw [entryRecords_eq, List.foldl_map, addRecords, List.foldl_map]

/-- **The operations of an interface.** They are named as the entries of the document are, each
once and in the order in which the names are first used, and each says what the entries with its
name say. The entries stand in the order of the document, and if the document was read, those of a
path in the order of all methods. -/
theorem operations_ofDocument (naming : Naming) (d : Document) (checked : Checked Api)
    (h : ofDocument naming d = .ok checked) :
    let operations := checked.value.operations.values
    FirstOccurrences (d.entries.map (Document.Entry.operationId naming))
        (operations.map (·.operationId)) ∧
      (∀ r ∈ operations, RecordOf d.components
        (d.entries.filter fun e => e.operationId naming = r.operationId) r) ∧
      ∀ (ν : Type) [Source ν] (part : ν), Document.read? part = some d →
        ∀ paths, d.paths = some paths → ∀ path item, paths.get? path = some item →
          (item.operations.map Prod.fst).Sublist Method.all := by
  intro operations
  have heq := operations_eq_addRecords h
  have hentry : ∀ entry ∈ checked.value.operations.entries, entry.2.operationId = entry.1 ∧
      RecordOf d.components (d.entries.filter fun e => e.operationId naming = entry.1) entry.2 :=
    fun entry hmem => recordOf_of_get? (heq ▸ Table.mem_entries_iff.mp hmem)
  have hkeys : operations.map (·.operationId) = checked.value.operations.keys := by
    show (List.map _ (List.map _ _)) = List.map _ _
    rw [List.map_map]
    exact List.map_congr_left fun entry hmem => (hentry entry hmem).1
  refine ⟨?_, fun r hr => ?_, fun ν _ part hread paths hpaths path item hitem =>
    Document.sublist_of_read? hread hpaths hitem⟩
  · rw [hkeys, heq, keys_addRecords, List.map_map]
    exact firstOccurrences_distinct _
  · obtain ⟨entry, hmem, rfl⟩ := List.mem_map.mp hr
    obtain ⟨hid, hrecord⟩ := hentry entry hmem
    rw [hid]
    exact hrecord

/-- Two entries of one name: the first has a summary and a request body, and the second says
something else of a status of the first and adds one. -/
theorem operations_ofDocument_merged :
    let json : Content := .ofList [("application/json", ⟨some (.inline (.ofType .boolean))⟩)]
    let post : Operation := ⟨some "thing.save", some "Save a thing", some (.inline ⟨json⟩),
      .ofList [("200", .inline ⟨"ok", json⟩)]⟩
    let put : Operation := ⟨some "thing.save", some "Ignored summary", none,
      .ofList [("404", .inline ⟨"missing", .empty⟩), ("200", .inline ⟨"replaced", .empty⟩)]⟩
    let d : Document := ⟨"3.1.0", ⟨"Merge", "1"⟩, some (.ofList
      [("/things", ⟨none, [(.post, post)]⟩), ("/things/\x7bid\x7d", ⟨none, [(.put, put)]⟩)]), none⟩
    ∃ checked, ofDocument .default d = .ok checked ∧ ∃ r ∈ checked.value.operations.values,
      r.operationId = "thing.save" ∧ r.summary = some "Save a thing" ∧ r.method = .post ∧
        r.path = "/things" ∧ r.requestBody = some .boolean ∧
        r.responses.get? "200" = some ⟨"replaced", none⟩ ∧
        r.responses.get? "404" = some ⟨"missing", none⟩ := by
  intro json post put d
  refine ⟨_, rfl, ?_⟩
  obtain ⟨hids, hrecords, -⟩ := operations_ofDocument .default d _ rfl
  have hid : "thing.save" ∈ d.entries.map (Document.Entry.operationId .default) :=
    List.mem_cons_self
  obtain ⟨r, hr, hname⟩ := List.mem_map.mp ((hids.mem_iff "thing.save").mpr hid)
  have hrecord := hrecords r hr
  rw [hname] at hrecord
  obtain ⟨e, he, hsummary, hmethod, hpath⟩ := hrecord.first
  obtain rfl := Option.some.inj he
  exact ⟨r, hr, hname, hsummary, hmethod, hpath, hrecord.requestBody, hrecord.responses "200",
    hrecord.responses "404"⟩

end Api

end OpenApiZod

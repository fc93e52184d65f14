/-!
# Tables

A `Table α` maps names to values and remembers the order in which the names first came. Writing
a name again replaces its value and keeps its place. `distinct` is the same idea for names
alone: every name once, where it first came.
-/

namespace OpenApiZod

/-- Adds `x` at the end unless it is there already. -/
def appendNew {α : Type} [DecidableEq α] (xs : List α) (x : α) : List α :=
  if x ∈ xs then xs else xs ++ [x]

/-- `xs` followed by those of `ys` that are new, each once. -/
def extendNew {α : Type} [DecidableEq α] (xs ys : List α) : List α :=
  ys.foldl appendNew xs

/-- Every element once, in the order of first occurrences. -/
def distinct {α : Type} [DecidableEq α] (xs : List α) : List α :=
  extendNew [] xs

/-- Adding an element adds that element and nothing else. -/
theorem mem_appendNew {α : Type} [DecidableEq α] {xs : List α} {x y : α} :
    y ∈ appendNew xs x ↔ y ∈ xs ∨ y = x := by
  unfold appendNew
  split
  · constructor
    · exact Or.inl
    · rintro (h | rfl) <;> assumption
  · simp

/-- Adding an element repeats none. -/
theorem nodup_appendNew {α : Type} [DecidableEq α] {xs : List α} {x : α} (h : xs.Nodup) :
    (appendNew xs x).Nodup := by
  unfold appendNew
  split
  · exact h
  · rename_i hx
    rw [List.nodup_append]
    refine ⟨h, by simp, ?_⟩
    intro a ha b hb
    simp only [List.mem_singleton] at hb
    rintro rfl
    exact hx (hb ▸ ha)

/-- An element that is there already is not added. -/
theorem appendNew_of_mem {α : Type} [DecidableEq α] {xs : List α} {x : α} (h : x ∈ xs) :
    appendNew xs x = xs :=
  if_pos h

/-- A new element comes last. -/
theorem appendNew_of_not_mem {α : Type} [DecidableEq α] {xs : List α} {x : α} (h : x ∉ xs) :
    appendNew xs x = xs ++ [x] :=
  if_neg h

/-- What was there before stays in front. -/
theorem prefix_appendNew {α : Type} [DecidableEq α] (xs : List α) (x : α) :
    xs <+: appendNew xs x := by
  unfold appendNew
  split
  · exact List.prefix_rfl
  · exact List.prefix_append xs [x]

/-- Adding several elements adds these and nothing else. -/
theorem mem_extendNew {α : Type} [DecidableEq α] {xs ys : List α} {y : α} :
    y ∈ extendNew xs ys ↔ y ∈ xs ∨ y ∈ ys := by
  induction ys generalizing xs with
  | nil => simp [extendNew]
  | cons z ys ih =>
    have : extendNew xs (z :: ys) = extendNew (appendNew xs z) ys := rfl
    rw [this, ih, mem_appendNew]
    simp [or_assoc]

/-- Adding several elements repeats none. -/
theorem nodup_extendNew {α : Type} [DecidableEq α] {xs ys : List α} (h : xs.Nodup) :
    (extendNew xs ys).Nodup := by
  induction ys generalizing xs with
  | nil => exact h
  | cons z ys ih => exact ih (nodup_appendNew h)

/-- No element is lost when repetitions are dropped. -/
@[simp] theorem mem_distinct {α : Type} [DecidableEq α] {xs : List α} {x : α} :
    x ∈ distinct xs ↔ x ∈ xs := by
  simp [distinct, mem_extendNew]

/-- None is repeated afterwards. -/
theorem nodup_distinct {α : Type} [DecidableEq α] (xs : List α) : (distinct xs).Nodup :=
  nodup_extendNew List.nodup_nil

/-- Writes `value` under `key` in a list of entries: in place of the entry that has the key, else
at the end. -/
def writeEntry {α : Type} (key : String) (value : α) :
    List (String × α) → List (String × α)
  | [] => [(key, value)]
  | entry :: rest =>
    if entry.1 = key then (key, value) :: rest else entry :: writeEntry key value rest

/-- Writing an entry adds its key if it is new. -/
theorem keys_writeEntry {α : Type} (key : String) (value : α) (entries : List (String × α)) :
    (writeEntry key value entries).map Prod.fst = appendNew (entries.map Prod.fst) key := by
  induction entries with
  | nil => rfl
  | cons entry rest ih =>
    simp only [writeEntry]
    split
    · rename_i h
      simp [appendNew, h]
    · rename_i h
      simp only [List.map_cons, ih, appendNew, List.mem_cons]
      by_cases hm : key ∈ rest.map Prod.fst
      · simp [hm]
      · have : ¬ key = entry.1 := fun he => h he.symm
        simp [hm, this]

/-- Entries in which every name stands once. -/
structure Table (α : Type) where
  entries : List (String × α)
  nodup : (entries.map Prod.fst).Nodup

namespace Table

variable {α β : Type}

/-- The table without entries. -/
def empty : Table α := ⟨[], List.nodup_nil⟩

instance : Inhabited (Table α) := ⟨empty⟩

/-- The names, in their order. -/
def keys (t : Table α) : List String := t.entries.map Prod.fst

/-- The values, in the order of their names. -/
def values (t : Table α) : List α := t.entries.map Prod.snd

/-- The value of a name. -/
def get? (t : Table α) (key : String) : Option α := t.entries.lookup key

/-- Whether the name has a value. -/
def contains (t : Table α) (key : String) : Bool := decide (key ∈ t.keys)

/-- Whether there are no entries. -/
def isEmpty (t : Table α) : Bool := t.entries.isEmpty

/-- How many entries there are. -/
def size (t : Table α) : Nat := t.entries.length

/-- Gives the name a value: in place if it has one already, else at the end. -/
def insert (t : Table α) (key : String) (value : α) : Table α where
  entries := writeEntry key value t.entries
  nodup := by
    rw [keys_writeEntry]
    exact nodup_appendNew t.nodup

/-- Writes all entries, one after the other. -/
def extend (t : Table α) (entries : List (String × α)) : Table α :=
  entries.foldl (fun t e => t.insert e.1 e.2) t

/-- The table of a list of entries: of entries with one name the last value counts, at the place
of the first. -/
def ofList (entries : List (String × α)) : Table α :=
  empty.extend entries

/-- Changes every value, knowing its name. -/
def mapWithKey (f : String → α → β) (t : Table α) : Table β where
  entries := t.entries.map fun e => (e.1, f e.1 e.2)
  nodup := by
    have : (t.entries.map fun e => (e.1, f e.1 e.2)).map Prod.fst = t.entries.map Prod.fst := by
      simp [List.map_map, Function.comp_def]
    rw [this]
    exact t.nodup

/-- No key stands twice. -/
theorem nodup_keys (t : Table α) : t.keys.Nodup := t.nodup

/-- Inserting adds the key if it is new. -/
@[simp] theorem keys_insert (t : Table α) (key : String) (value : α) :
    (t.insert key value).keys = appendNew t.keys key :=
  keys_writeEntry key value t.entries

/-- Changing values keeps the keys. -/
@[simp] theorem keys_mapWithKey (f : String → α → β) (t : Table α) :
    (t.mapWithKey f).keys = t.keys := by
  simp [keys, mapWithKey, List.map_map, Function.comp_def]

/-! ### Looking up -/

/-- The empty table has no keys. -/
@[simp] theorem keys_empty : (empty : Table α).keys = [] := rfl

/-- The empty table has no values. -/
@[simp] theorem get?_empty (key : String) : (empty : Table α).get? key = none := rfl

/-- A lookup takes the first entry with the key. -/
theorem lookup_entry (key : String) (entry : String × α) (rest : List (String × α)) :
    (entry :: rest).lookup key = if key = entry.1 then some entry.2 else rest.lookup key := by
  obtain ⟨k, v⟩ := entry
  rw [List.lookup_cons]
  by_cases h : key = k
  · simp [h]
  · have hb : (key == k) = false := by simp [h]
    rw [hb, if_neg h]

/-- An entry is what a look-up of its name gives. -/
theorem mem_entries_iff {t : Table α} {key : String} {value : α} :
    (key, value) ∈ t.entries ↔ t.get? key = some value := by
  obtain ⟨entries, nodup⟩ := t
  simp only [get?]
  induction entries with
  | nil => simp
  | cons entry rest ih =>
    simp only [List.map_cons, List.nodup_cons] at nodup
    rw [List.mem_cons, lookup_entry, ih nodup.2]
    by_cases hkey : key = entry.1
    · have habsent : rest.lookup key ≠ some value := fun h =>
        nodup.1 (hkey ▸ List.mem_map_of_mem ((ih nodup.2).mpr h))
      simp [hkey, hkey ▸ habsent, Prod.ext_iff, eq_comm]
    · simp [hkey, Prod.ext_iff]

/-- The keys are the names that have values. -/
theorem mem_keys_iff {t : Table α} {key : String} :
    key ∈ t.keys ↔ ∃ value, t.get? key = some value := by
  simp only [keys, List.mem_map, ← mem_entries_iff]
  constructor
  · rintro ⟨⟨k, v⟩, h, rfl⟩
    exact ⟨v, h⟩
  · rintro ⟨v, h⟩
    exact ⟨(key, v), h, rfl⟩

/-- A name with a value is a key. -/
theorem mem_keys_of_get? {t : Table α} {key : String} {value : α}
    (h : t.get? key = some value) : key ∈ t.keys :=
  mem_keys_iff.mpr ⟨value, h⟩

/-- The names without values are those that are no keys. -/
theorem get?_eq_none_iff {t : Table α} {key : String} : t.get? key = none ↔ key ∉ t.keys := by
  rw [mem_keys_iff, Option.eq_none_iff_forall_ne_some, not_exists]

/-- A table contains its keys. -/
theorem contains_iff {t : Table α} {key : String} : t.contains key = true ↔ key ∈ t.keys := by
  simp [contains]

/-- Writing an entry changes the value of its key alone. -/
theorem lookup_writeEntry (key other : String) (value : α) (entries : List (String × α)) :
    (writeEntry key value entries).lookup other =
      if other = key then some value else entries.lookup other := by
  induction entries with
  | nil => simp [writeEntry, lookup_entry]
  | cons entry rest ih =>
    simp only [writeEntry]
    split
    · rename_i hkey
      by_cases hother : other = key <;> simp [lookup_entry, hkey, hother]
    · rename_i hkey
      rw [lookup_entry, lookup_entry, ih]
      by_cases hother : other = entry.1
      · have hne : other ≠ key := fun h => hkey (hother ▸ h)
        simp [hother, hother ▸ hne]
      · simp [hother]

/-- Inserting changes the value of the key alone. -/
theorem get?_insert (t : Table α) (key other : String) (value : α) :
    (t.insert key value).get? other = if other = key then some value else t.get? other :=
  lookup_writeEntry key other value t.entries

/-- The key has the value that was inserted. -/
@[simp] theorem get?_insert_self (t : Table α) (key : String) (value : α) :
    (t.insert key value).get? key = some value := by
  rw [get?_insert, if_pos rfl]

/-- Changing values changes each one under its own key. -/
theorem get?_mapWithKey (f : String → α → β) (t : Table α) (key : String) :
    (t.mapWithKey f).get? key = (t.get? key).map (f key) := by
  simp only [get?, mapWithKey]
  induction t.entries with
  | nil => rfl
  | cons entry rest ih =>
    rw [List.map_cons, lookup_entry, lookup_entry, ih]
    by_cases hkey : key = entry.1
    · simp [hkey]
    · simp [hkey]

/-- All other keys keep their values. -/
theorem get?_insert_of_ne (t : Table α) {key other : String} (value : α) (h : other ≠ key) :
    (t.insert key value).get? other = t.get? other := by
  rw [get?_insert, if_neg h]

end Table

end OpenApiZod

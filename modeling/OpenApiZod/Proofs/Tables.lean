import Mathlib.Data.List.Basic
import Mathlib.Data.List.Induction
import OpenApiZod.Table

/-!
# First occurrences and last values

`distinct` lists every element where it occurs first (`pairwise_idxOf_distinct`). A table that is
extended keeps its names in this order (`Table.keys_extend`), while of several values of a name the
last one counts (`Table.get?_extend`).
-/

namespace OpenApiZod

/-! ### First occurrences -/

section Distinct

variable {α : Type} [DecidableEq α]

/-- A filter keeps a new element if it would keep it anywhere. -/
theorem filter_appendNew (p : α → Bool) (xs : List α) (x : α) :
    (appendNew xs x).filter p = if p x = true then appendNew (xs.filter p) x else xs.filter p := by
  by_cases hx : x ∈ xs
  · rw [appendNew_of_mem hx]
    split
    · rename_i hp
      rw [appendNew_of_mem (List.mem_filter.mpr ⟨hx, hp⟩)]
    · rfl
  · rw [appendNew_of_not_mem hx, List.filter_append]
    split
    · rename_i hp
      rw [appendNew_of_not_mem fun h => hx (List.mem_filter.mp h).1, List.filter_cons_of_pos hp,
        List.filter_nil]
    · rename_i hp
      rw [List.filter_cons_of_neg hp, List.filter_nil, List.append_nil]

/-- Elements may be left out before or after the first occurrences are listed. -/
theorem filter_extendNew (p : α → Bool) (xs ys : List α) :
    (extendNew xs ys).filter p = extendNew (xs.filter p) (ys.filter p) := by
  induction ys generalizing xs with
  | nil => rfl
  | cons y ys ih =>
      have hstep : extendNew xs (y :: ys) = extendNew (appendNew xs y) ys := rfl
      rw [hstep, ih, filter_appendNew]
      by_cases hp : p y = true
      · rw [if_pos hp, List.filter_cons_of_pos hp]
        rfl
      · rw [if_neg hp, List.filter_cons_of_neg hp]

/-- It does not matter whether repetitions are dropped before a filter or after it. -/
theorem distinct_filter (p : α → Bool) (xs : List α) :
    distinct (xs.filter p) = (distinct xs).filter p :=
  (filter_extendNew p [] xs).symm

/-- What is new in a second list follows what is in the first. -/
theorem distinct_append (xs ys : List α) : distinct (xs ++ ys) = extendNew (distinct xs) ys :=
  List.foldl_append

/-- Nothing is left only of nothing. -/
theorem distinct_eq_nil_iff {xs : List α} : distinct xs = [] ↔ xs = [] := by
  simp only [List.eq_nil_iff_forall_not_mem, mem_distinct]

/-- What is new comes after everything before it. -/
theorem pairwise_idxOf_appendNew {seen xs : List α} (hmem : ∀ y, y ∈ seen ↔ y ∈ xs)
    (h : seen.Pairwise fun a b => xs.idxOf a < xs.idxOf b) (x : α) :
    (appendNew seen x).Pairwise fun a b => (xs ++ [x]).idxOf a < (xs ++ [x]).idxOf b := by
  have hold : seen.Pairwise fun a b => (xs ++ [x]).idxOf a < (xs ++ [x]).idxOf b := by
    refine h.imp_of_mem fun {a b} ha hb hlt => ?_
    rw [List.idxOf_append_of_mem ((hmem a).mp ha), List.idxOf_append_of_mem ((hmem b).mp hb)]
    exact hlt
  by_cases hx : x ∈ seen
  · rw [appendNew_of_mem hx]
    exact hold
  · rw [appendNew_of_not_mem hx, List.pairwise_append]
    refine ⟨hold, List.pairwise_singleton _ _, fun a ha b hb => ?_⟩
    obtain rfl := List.mem_singleton.mp hb
    have hlt : xs.idxOf a < xs.length := List.idxOf_lt_length_of_mem ((hmem a).mp ha)
    rw [List.idxOf_append_of_mem ((hmem a).mp ha),
      List.idxOf_append_of_notMem fun hb => hx ((hmem b).mpr hb)]
    omega

/-- The elements stand in the order in which each occurs first. -/
theorem pairwise_idxOf_distinct (xs : List α) :
    (distinct xs).Pairwise fun a b => xs.idxOf a < xs.idxOf b := by
  induction xs using List.reverseRecOn with
  | nil => exact List.Pairwise.nil
  | append_singleton xs x ih =>
      rw [distinct_append]
      exact pairwise_idxOf_appendNew (fun _ => mem_distinct) ih x

/-- A list without repetitions is its own list of first occurrences. -/
theorem distinct_of_nodup {xs : List α} (h : xs.Nodup) : distinct xs = xs := by
  induction xs using List.reverseRecOn with
  | nil => rfl
  | append_singleton xs x ih =>
      obtain ⟨hxs, -, hnew⟩ := List.nodup_append.mp h
      have hx : x ∉ xs := fun hx => hnew x hx x (List.mem_singleton_self x) rfl
      rw [distinct_append, ih hxs]
      exact appendNew_of_not_mem hx

/-- Of elements that are added, only the first occurrences count. -/
theorem extendNew_distinct (xs ys : List α) : extendNew xs (distinct ys) = extendNew xs ys := by
  induction ys using List.reverseRecOn with
  | nil => rfl
  | append_singleton ys y ih =>
      have hstep (zs : List α) : extendNew xs (zs ++ [y]) = appendNew (extendNew xs zs) y :=
        List.foldl_append
      have hdistinct : distinct (ys ++ [y]) = appendNew (distinct ys) y := distinct_append ys [y]
      rw [hdistinct, hstep]
      by_cases hy : y ∈ distinct ys
      · have hmem : y ∈ extendNew xs ys := mem_extendNew.mpr (Or.inr (mem_distinct.mp hy))
        rw [appendNew_of_mem hy, appendNew_of_mem hmem, ih]
      · rw [appendNew_of_not_mem hy, hstep, ih]

/-- `ys` lists the elements of `xs`, each once and where it occurs first. -/
structure FirstOccurrences (xs ys : List α) : Prop where
  nodup : ys.Nodup
  mem_iff : ∀ x, x ∈ ys ↔ x ∈ xs
  ordered : ys.Pairwise fun a b => xs.idxOf a < xs.idxOf b

/-- Dropping repetitions leaves the first occurrences. -/
theorem firstOccurrences_distinct (xs : List α) : FirstOccurrences xs (distinct xs) where
  nodup := nodup_distinct xs
  mem_iff _ := mem_distinct
  ordered := pairwise_idxOf_distinct xs

end Distinct

/-! ### Last values -/

namespace Table

variable {α : Type}

/-- A key that no entry has is not found. -/
theorem lookup_eq_none_of_not_mem {key : String} {entries : List (String × α)}
    (h : key ∉ entries.map Prod.fst) : entries.lookup key = none := by
  rw [List.lookup_eq_none_iff]
  intro entry hentry
  have hne : key ≠ entry.1 := fun heq => h (heq ▸ List.mem_map_of_mem hentry)
  simpa using hne

/-- Names keep the places at which they came first. -/
theorem keys_extend (t : Table α) (entries : List (String × α)) :
    (t.extend entries).keys = extendNew t.keys (entries.map Prod.fst) := by
  induction entries generalizing t with
  | nil => rfl
  | cons entry rest ih =>
      have hstep : t.extend (entry :: rest) = (t.insert entry.1 entry.2).extend rest := rfl
      rw [hstep, ih, keys_insert]
      rfl

/-- A table that was extended holds nothing but what it held and what was written to it. -/
theorem mem_of_get?_extend {t : Table α} {entries : List (String × α)} {key : String} {value : α}
    (h : (t.extend entries).get? key = some value) :
    (key, value) ∈ entries ∨ t.get? key = some value := by
  induction entries generalizing t with
  | nil => exact Or.inr h
  | cons entry rest ih =>
      rcases ih h with hmem | hget
      · exact Or.inl (List.mem_cons_of_mem _ hmem)
      · rw [get?_insert] at hget
        by_cases hkey : key = entry.1
        · rw [if_pos hkey] at hget
          rw [hkey, ← Option.some.inj hget]
          exact Or.inl List.mem_cons_self
        · rw [if_neg hkey] at hget
          exact Or.inr hget

/-- Names that are written with values of their own have these, and the other names keep theirs. -/
theorem get?_extend_map (t : Table α) (names : List String) (f : String → α) (key : String) :
    (t.extend (names.map fun name => (name, f name))).get? key =
      if key ∈ names then some (f key) else t.get? key := by
  induction names generalizing t with
  | nil => rfl
  | cons name names ih =>
      rw [List.map_cons, extend, List.foldl_cons, ← extend, ih, get?_insert]
      by_cases hmem : key ∈ names
      · simp [hmem]
      · by_cases hkey : key = name <;> simp [hmem, hkey]

/-- What a later table says of a name replaces what was said before. -/
theorem get?_extend (t later : Table α) (key : String) :
    (t.extend later.entries).get? key = (later.get? key).or (t.get? key) := by
  obtain ⟨entries, nodup⟩ := later
  show (t.extend entries).get? key = (entries.lookup key).or (t.get? key)
  induction entries generalizing t with
  | nil => rfl
  | cons entry rest ih =>
      simp only [List.map_cons, List.nodup_cons] at nodup
      have hstep : t.extend (entry :: rest) = (t.insert entry.1 entry.2).extend rest := rfl
      rw [hstep, ih _ nodup.2, get?_insert, lookup_entry]
      by_cases hkey : key = entry.1
      · rw [if_pos hkey, if_pos hkey, hkey, lookup_eq_none_of_not_mem nodup.1]
        rfl
      · rw [if_neg hkey, if_neg hkey]

end Table

end OpenApiZod

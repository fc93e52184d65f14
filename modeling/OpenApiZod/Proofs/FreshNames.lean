import Mathlib.Data.List.Nodup
import Mathlib.Data.List.Perm.Subperm
import Mathlib.Order.Bounds.Basic
import OpenApiZod.Fresh

/-!
# Fresh names

A fresh name is free (`freshName_not_mem`), and it is the candidate with the fewest underscores of
which that is true (`freshName_eq_iff`), never more of them than names are taken
(`exists_isLeast_freshName`). Several fresh names are chosen one after the other (`freshNames`).
-/

namespace OpenApiZod

/-- The underscores come last. -/
theorem toList_underscored (name : String) (n : Nat) :
    (underscored name n).toList = name.toList ++ List.replicate n '_' := by
  rw [underscored, String.toList_append, String.toList_ofList]

/-- Different numbers of underscores give different names. -/
theorem underscored_injective (name : String) : Function.Injective (underscored name) := by
  intro m n h
  have hlength := congrArg (fun s => s.toList.length) h
  simp only [toList_underscored, List.length_append, List.length_replicate] at hlength
  omega

/-- So do different names with as many underscores. -/
theorem underscored_left_injective (n : Nat) : Function.Injective (underscored · n) := by
  intro name name' h
  have hlist := congrArg String.toList h
  simp only [toList_underscored] at hlist
  exact String.toList_inj.mp (List.append_cancel_right hlist)

/-- Without underscores the name stays. -/
@[simp] theorem underscored_zero (name : String) : underscored name 0 = name := by
  rw [← String.toList_inj, toList_underscored, List.replicate_zero, List.append_nil]

/-- Underscores add up. -/
@[simp] theorem underscored_underscored (name : String) (m n : Nat) :
    underscored (underscored name m) n = underscored name (m + n) := by
  rw [← String.toList_inj, toList_underscored, toList_underscored, toList_underscored,
    List.append_assoc, List.replicate_append_replicate]

/-- One of the candidates is free, since there is one more of them than names that are taken. -/
theorem exists_underscored_not_mem (taken : List String) (name : String) :
    ∃ n ∈ List.range (taken.length + 1), underscored name n ∉ taken := by
  by_contra hnone
  have hsubset : (List.range (taken.length + 1)).map (underscored name) ⊆ taken := by
    intro candidate hcandidate
    obtain ⟨n, hn, rfl⟩ := List.mem_map.mp hcandidate
    by_contra hfree
    exact hnone ⟨n, hn, hfree⟩
  have hnodup : ((List.range (taken.length + 1)).map (underscored name)).Nodup :=
    List.nodup_range.map (underscored_injective name)
  have hlength := (hnodup.subperm hsubset).length_le
  rw [List.length_map, List.length_range] at hlength
  omega

/-- A fresh name has as few underscores as keep it apart from the names that are taken. -/
theorem exists_freshName_eq (taken : List String) (name : String) :
    ∃ n, freshName taken name = underscored name n ∧ underscored name n ∉ taken ∧
      ∀ m < n, underscored name m ∈ taken := by
  obtain ⟨n, hn⟩ : ∃ n, (List.range (taken.length + 1)).find?
      (fun n => decide (underscored name n ∉ taken)) = some n := by
    rw [← Option.isSome_iff_exists, List.find?_isSome]
    simpa using exists_underscored_not_mem taken name
  have hfresh : freshName taken name = underscored name n := by
    rw [freshName, List.find?_map]
    exact congrArg (fun found => (found.map (underscored name)).getD name) hn
  obtain ⟨hfree, -, hleast⟩ := List.find?_range_eq_some.mp hn
  exact ⟨n, hfresh, by simpa using hfree, by simpa using hleast⟩

/-- A fresh name has the fewest underscores that make it free. -/
theorem freshName_eq_iff {taken : List String} {name : String} {n : Nat} :
    freshName taken name = underscored name n ↔
      underscored name n ∉ taken ∧ ∀ m < n, underscored name m ∈ taken := by
  obtain ⟨least, hfresh, hfree, hleast⟩ := exists_freshName_eq taken name
  constructor
  · intro heq
    obtain rfl : least = n := underscored_injective name (hfresh.symm.trans heq)
    exact ⟨hfree, hleast⟩
  · rintro ⟨hfree', hleast'⟩
    rcases Nat.lt_trichotomy least n with hlt | rfl | hlt
    · exact absurd (hleast' least hlt) hfree
    · exact hfresh
    · exact absurd (hleast n hlt) hfree'

/-- A fresh name is the name with underscores. -/
theorem freshName_eq_underscored (taken : List String) (name : String) :
    ∃ n, freshName taken name = underscored name n := by
  obtain ⟨n, hfresh, -⟩ := exists_freshName_eq taken name
  exact ⟨n, hfresh⟩

/-- It is not taken. -/
theorem freshName_not_mem (taken : List String) (name : String) : freshName taken name ∉ taken := by
  obtain ⟨n, hfresh, hfree, -⟩ := exists_freshName_eq taken name
  rwa [hfresh]

/-- As many underscores as there are names taken are always enough. -/
theorem exists_isLeast_freshName (taken : List String) (name : String) :
    ∃ n ≤ taken.length, freshName taken name = underscored name n ∧
      IsLeast {k | underscored name k ∉ taken} n := by
  obtain ⟨n, hfresh, hfree, hleast⟩ := exists_freshName_eq taken name
  have hlower : ∀ k, underscored name k ∉ taken → n ≤ k := by
    intro k hk
    by_contra hlt
    exact hk (hleast k (by omega))
  obtain ⟨k, hk, hkfree⟩ := exists_underscored_not_mem taken name
  have hkn := hlower k hkfree
  rw [List.mem_range] at hk
  exact ⟨n, by omega, hfresh, hfree, hlower⟩

/-! ### Several fresh names -/

/-- A fresh name for each candidate, where the names before it are taken as well. -/
def freshNames (taken : List String) : List String → List String
  | [] => []
  | name :: rest => freshName taken name :: freshNames (taken ++ [freshName taken name]) rest

/-- Fresh names are different from each other and from all that is taken. -/
theorem nodup_freshNames (taken names : List String) :
    (freshNames taken names).Nodup ∧ ∀ name ∈ freshNames taken names, name ∉ taken := by
  induction names generalizing taken with
  | nil => exact ⟨List.nodup_nil, fun _ h => absurd h List.not_mem_nil⟩
  | cons candidate rest ih =>
      obtain ⟨hnodup, hnew⟩ := ih (taken ++ [freshName taken candidate])
      rw [freshNames]
      refine ⟨List.nodup_cons.mpr ⟨fun hmem => ?_, hnodup⟩, fun name hname => ?_⟩
      · exact hnew _ hmem (List.mem_append_right _ (List.mem_singleton_self _))
      · rcases List.mem_cons.mp hname with rfl | hname
        · exact freshName_not_mem taken candidate
        · exact fun htaken => hnew name hname (List.mem_append_left _ htaken)

/-- Each fresh name is chosen against what is taken at first and the fresh names before it. -/
theorem getElem?_freshNames (taken : List String) {names : List String} {i : ℕ} {name : String}
    (h : names[i]? = some name) :
    (freshNames taken names)[i]? =
      some (freshName (taken ++ (freshNames taken names).take i) name) := by
  induction names generalizing taken i with
  | nil => simp at h
  | cons first rest ih =>
      rw [freshNames]
      cases i with
      | zero =>
          simp only [List.getElem?_cons_zero, Option.some.injEq] at h
          simp [h]
      | succ i =>
          rw [List.getElem?_cons_succ] at h
          rw [List.getElem?_cons_succ, ih _ h, List.take_succ_cons, List.append_assoc,
            List.singleton_append]

end OpenApiZod

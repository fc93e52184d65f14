/-!
# Names not yet on a path

Walks along references end because the path they keep never meets a name twice. `remaining`
counts the names that the path has not met; a step to a new name makes it smaller.
-/

namespace OpenApiZod

/-- How many of `names` are not in `path`. -/
def remaining (names path : List String) : Nat :=
  (names.filter (· ∉ path)).length

/-- A path that has met more names has fewer left. -/
theorem remaining_mono {names path path' : List String} (hsub : ∀ x ∈ path, x ∈ path') :
    remaining names path' ≤ remaining names path := by
  unfold remaining
  rw [← List.countP_eq_length_filter, ← List.countP_eq_length_filter]
  apply List.countP_mono_left
  intro y _ hy
  simp only [decide_eq_true_eq] at hy ⊢
  exact fun h => hy (hsub y h)

/-- A path that has met a new name as well has fewer names left. -/
theorem remaining_lt {names path path' : List String} {name : String}
    (hname : name ∈ names) (hpath : name ∉ path)
    (hsub : ∀ x, x ∈ path ∨ x = name → x ∈ path') :
    remaining names path' < remaining names path := by
  have hle (xs : List String) : remaining xs path' ≤ remaining xs path :=
    remaining_mono fun x hx => hsub x (Or.inl hx)
  obtain ⟨before, after, rfl⟩ := List.append_of_mem hname
  have hin : name ∈ path' := hsub _ (Or.inr rfl)
  have h1 := hle before
  have h2 := hle after
  simp only [remaining, ← List.countP_eq_length_filter] at h1 h2 ⊢
  simp only [List.countP_append, List.countP_cons, hin, hpath, not_true_eq_false,
    not_false_eq_true, decide_true, decide_false, if_true]
  simp only [Bool.false_eq_true, if_false]
  omega

/-- A step to a new name leaves fewer names than before. -/
theorem remaining_append_lt {names path : List String} {name : String}
    (hname : name ∈ names) (hpath : name ∉ path) :
    remaining names (path ++ [name]) < remaining names path :=
  remaining_lt hname hpath (by simp)

end OpenApiZod

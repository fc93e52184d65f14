import OpenApiZod.Proofs.CompiledFiles

/-!
# Directories of operations

Each operation is written to a directory of its own. It is the path segment of the operation's id,
with as few underscores after it as keep it apart from the component directory, from the index and
from the directories before it (`groups_isLeast`). Ids that end in underscores themselves may meet a
name that an earlier id was moved to, and are then moved on.

Whatever the id is, the directory is one segment of a path and stays inside the output directory
(`IsSafeSegment`).
-/

namespace OpenApiZod

/-- A name that a file system takes for one entry of a directory. -/
structure IsSafeSegment (name : String) : Prop where
  ne_empty : name ≠ ""
  ne_here : name ≠ "."
  ne_parent : name ≠ ".."
  clean : ∀ c ∈ name.toList, c ≠ '/' ∧ c ≠ '\\' ∧ c ≠ ':' ∧ isControl c = false

/-- The characters that a segment keeps are those other than separators, the colon and controls. -/
theorem breaksSegment_eq_false_iff {c : Char} :
    breaksSegment c = false ↔ c ≠ '/' ∧ c ≠ '\\' ∧ c ≠ ':' ∧ isControl c = false := by
  simp [breaksSegment, and_assoc]

/-- A segment holds no character that breaks one. -/
theorem not_breaksSegment_of_mem_pathSegment {name : String} {c : Char}
    (h : c ∈ (pathSegment name).toList) : breaksSegment c = false := by
  rw [toList_pathSegment] at h
  split at h
  · rw [List.eq_of_mem_replicate h]
    decide
  · obtain ⟨d, -, rfl⟩ := List.mem_map.mp h
    by_cases hd : breaksSegment d = true
    · rw [if_pos hd]
      decide
    · rw [if_neg hd]
      simpa using hd

/-- A plain name without characters that break a segment is safe: it is neither empty nor made of
dots. -/
theorem IsPlain.isSafeSegment {name : String} (h : IsPlain name)
    (hclean : ∀ c ∈ name.toList, breaksSegment c = false) : IsSafeSegment name := by
  obtain ⟨-, c, hc, hdot⟩ := h
  refine ⟨?_, ?_, ?_, fun d hd => breaksSegment_eq_false_iff.mp (hclean d hd)⟩
  · rintro rfl
    simp at hc
  · rintro rfl
    exact hdot (by simpa using hc)
  · rintro rfl
    exact hdot (by simpa using hc)

/-- A segment stays a safe one with underscores at its end. -/
theorem isSafeSegment_underscored_pathSegment (name : String) (n : ℕ) :
    IsSafeSegment (underscored (pathSegment name) n) := by
  refine ((isPlain_pathSegment name).underscored n).isSafeSegment fun c hc => ?_
  rw [toList_underscored] at hc
  rcases List.mem_append.mp hc with hc | hc
  · exact not_breaksSegment_of_mem_pathSegment hc
  · rw [List.eq_of_mem_replicate hc]
    decide

namespace OperationModule

/-- **Directories of operations.** Whatever the ids of the operations are, there is one directory
for each, in order. The directories are different from each other, from the component directory and
from the index, and each is a safe segment: the path segment of the id followed by the least number
of underscores that makes it none of these two names and of the directories before it. That is at
most one underscore for each of them. -/
theorem groups_isLeast (api : Api) (options : OutputOptions) :
    let ids := api.operations.values.map (·.operationId)
    let dirs := (groups api options).1
    let kept := [options.componentsDir, "index." ++ options.extension]
    dirs.length = ids.length ∧ dirs.Nodup ∧
      (∀ dir ∈ dirs, dir ∉ kept ∧ IsSafeSegment dir) ∧
      ∀ i id, ids[i]? = some id → ∃ n ≤ i + 2,
        dirs[i]? = some (underscored (pathSegment id) n) ∧
          IsLeast {k | underscored (pathSegment id) k ∉ kept ++ dirs.take i} n := by
  intro ids dirs kept
  have hdirs : dirs = freshNames kept (ids.map pathSegment) := groupsFrom_eq_freshNames kept ids
  have hlength : dirs.length = ids.length := length_groupsFrom kept ids
  obtain ⟨hnodup, hnew⟩ := nodup_groupsFrom kept ids
  refine ⟨hlength, hnodup, fun dir hdir => ⟨hnew dir hdir, ?_⟩, fun i id hid => ?_⟩
  · obtain ⟨id, -, n, rfl⟩ := exists_id_of_mem_groupsFrom hdir
    exact isSafeSegment_underscored_pathSegment id n
  · have hsegment : (ids.map pathSegment)[i]? = some (pathSegment id) := by simp [hid]
    have hi : i < ids.length := (List.getElem?_eq_some_iff.mp hid).1
    obtain ⟨n, hn, hfresh, hleast⟩ :=
      exists_isLeast_freshName (kept ++ dirs.take i) (pathSegment id)
    have hcount : (kept ++ dirs.take i).length = i + 2 := by
      rw [List.length_append, List.length_take, hlength, Nat.min_eq_left hi.le, Nat.add_comm]
      rfl
    refine ⟨n, hcount ▸ hn, ?_, hleast⟩
    rw [hdirs, getElem?_freshNames kept hsegment, ← hdirs, hfresh]

/-- The second id is moved on to the name that the third one has, and so the third one too. -/
example : (groupsFrom ["_components", "index.ts"] ["a/b", "a_b", "a_b_", "..", "index.ts"]).1 =
    ["a_b", "a_b_", "a_b__", "__", "index.ts_"] := by
  decide

end OperationModule

end OpenApiZod

import Mathlib.Data.Bool.AllAny
import OpenApiZod.Identifier
import OpenApiZod.Module.Operation
import OpenApiZod.Path
import OpenApiZod.Proofs.FreshNames

/-!
# Path segments

The names in a document are written to paths by `pathSegment` and declared as bindings by
`Identifier.ofName`. Neither keeps all names apart, but every character that is replaced in a path
segment is replaced in a binding too. So names with one path segment have one binding
(`ofName_eq_of_pathSegment_eq`).

A path segment is plain: it leads one directory down, whatever the name was (`isPlain_pathSegment`).
Underscores after it, as they keep the directories of operations apart, change nothing about that.
-/

namespace OpenApiZod

/-! ### Path segments and bindings -/

namespace Identifier

/-- What may stand in an identifier is what may start one, or a digit. -/
theorem isPart_eq (c : Char) : isPart c = (isStart c || c.isDigit) := by
  rw [isPart, Char.isAlphanum, Bool.or_right_comm _ c.isDigit, Bool.or_right_comm _ c.isDigit]
  rfl

/-- Where the code points of digits lie. -/
theorem toNat_of_isDigit {c : Char} (h : c.isDigit = true) : 0x30 ≤ c.toNat ∧ c.toNat ≤ 0x39 := by
  have hval : c.val.toNat = c.toNat := rfl
  simp only [Char.isDigit, Bool.and_eq_true, decide_eq_true_eq, ge_iff_le,
    UInt32.le_iff_toNat_le, hval] at h
  exact h

/-- Where the code points of the characters lie that may start an identifier. -/
theorem toNat_of_isStart {c : Char} (h : isStart c = true) :
    0x41 ≤ c.toNat ∧ c.toNat ≤ 0x5A ∨ 0x61 ≤ c.toNat ∧ c.toNat ≤ 0x7A ∨ c.toNat = 0x5F ∨
      c.toNat = 0x24 := by
  have hval : c.val.toNat = c.toNat := rfl
  have hclasses : (decide (c.val ≥ 'A'.val ∧ c.val ≤ 'Z'.val) ||
      (decide (c.val ≥ 'a'.val) && decide (c.val ≤ 'z'.val)) || c == '_' || c == '$') = true := h
  simp only [Bool.or_eq_true, Bool.and_eq_true, decide_eq_true_eq, beq_iff_eq, ge_iff_le,
    UInt32.le_iff_toNat_le, hval] at hclasses
  rcases hclasses with ((hupper | hlower) | rfl) | rfl
  · exact Or.inl hupper
  · exact Or.inr (Or.inl hlower)
  · decide
  · decide

/-- Where the code points of an identifier's characters lie. -/
theorem toNat_of_isPart {c : Char} (h : isPart c = true) :
    0x30 ≤ c.toNat ∧ c.toNat ≤ 0x39 ∨ 0x41 ≤ c.toNat ∧ c.toNat ≤ 0x5A ∨
      0x61 ≤ c.toNat ∧ c.toNat ≤ 0x7A ∨ c.toNat = 0x5F ∨ c.toNat = 0x24 := by
  rw [isPart_eq] at h
  rcases Bool.or_eq_true_iff.mp h with hstart | hdigit
  · exact Or.inr (toNat_of_isStart hstart)
  · exact Or.inl (toNat_of_isDigit hdigit)

end Identifier

/-- No character that breaks a segment is part of an identifier. -/
theorem isPart_of_breaksSegment {c : Char} (h : breaksSegment c = true) :
    Identifier.isPart c = false := by
  by_contra hpart
  have hrange := Identifier.toNat_of_isPart ((Bool.not_eq_false _).mp hpart)
  rw [breaksSegment, isControl] at h
  simp only [Bool.or_eq_true, Bool.and_eq_true, beq_iff_eq, decide_eq_true_eq] at h
  rcases h with ((rfl | rfl) | rfl) | h
  · exact hpart (by decide)
  · exact hpart (by decide)
  · exact hpart (by decide)
  · omega

/-- Replacing what breaks a segment does not make dots of other characters. -/
theorem all_dot_map_iff {cs : List Char} :
    (cs.map fun c => if breaksSegment c then '_' else c).all (· == '.') = cs.all (· == '.') := by
  rw [List.all_map]
  congr 1
  funext c
  by_cases h : breaksSegment c = true
  · have hdot : c ≠ '.' := by rintro rfl; revert h; decide
    simp [h, hdot]
  · simp [h]

/-- The characters of a segment: underscores for dots alone, otherwise the name's own with those
that break a segment replaced. -/
theorem toList_pathSegment (name : String) :
    (pathSegment name).toList =
      if name.toList.all (· == '.') then List.replicate (max name.toList.length 1) '_'
      else name.toList.map fun c => if breaksSegment c then '_' else c := by
  rw [pathSegment]
  simp only [all_dot_map_iff, List.length_map]
  split <;> exact String.toList_ofList

/-- A name and its path segment have one binding. -/
theorem ofName_pathSegment (name : String) :
    Identifier.ofName (pathSegment name) = Identifier.ofName name := by
  by_cases hempty : name.toList = []
  · rw [String.toList_eq_nil_iff.mp hempty]
    decide
  · have hsanitize : Identifier.sanitize (pathSegment name) = Identifier.sanitize name := by
      rw [Identifier.sanitize, Identifier.sanitize, toList_pathSegment]
      congr 1
      split
      · rename_i hdots
        have hlength : max name.toList.length 1 = name.toList.length := by
          have := List.length_pos_iff.mpr hempty
          omega
        rw [hlength, List.map_replicate, eq_comm, List.eq_replicate_iff, List.length_map]
        refine ⟨rfl, fun c hc => ?_⟩
        obtain ⟨dot, hmem, rfl⟩ := List.mem_map.mp hc
        obtain rfl : dot = '.' := by simpa using List.all_eq_true.mp hdots dot hmem
        decide
      · rw [List.map_map]
        refine List.map_congr_left fun c _ => ?_
        by_cases h : breaksSegment c = true
        · simp [h, isPart_of_breaksSegment h]
        · simp [h]
    rw [Identifier.ofName, Identifier.ofName, hsanitize]

/-- Names with one path segment have one binding. -/
theorem ofName_eq_of_pathSegment_eq {a b : String} (h : pathSegment a = pathSegment b) :
    Identifier.ofName a = Identifier.ofName b := by
  rw [← ofName_pathSegment a, h, ofName_pathSegment]

/-! ### Plain names -/

/-- A name that is one part of a path and leads down: it has no slash, and some character of it is
no dot. -/
def IsPlain (name : String) : Prop :=
  '/' ∉ name.toList ∧ ∃ c ∈ name.toList, c ≠ '.'

-- through the characters of the name: an `∃` over characters alone is decided by trying them all
instance (name : String) : Decidable (IsPlain name) :=
  decidable_of_iff ('/' ∉ name.toList ∧ name.toList.any fun c => c ≠ '.')
    (and_congr_right' List.any_iff_exists_prop)

/-- The segment of a name is plain. -/
theorem isPlain_pathSegment (name : String) : IsPlain (pathSegment name) := by
  rw [IsPlain, toList_pathSegment]
  split
  · refine ⟨fun hmem => ?_, '_', List.mem_replicate.mpr ⟨by omega, rfl⟩, by decide⟩
    exact absurd (List.eq_of_mem_replicate hmem) (by decide)
  · rename_i hdots
    refine ⟨fun hmem => ?_, ?_⟩
    · obtain ⟨c, -, heq⟩ := List.mem_map.mp hmem
      by_cases h : breaksSegment c = true
      · rw [if_pos h] at heq
        exact absurd heq (by decide)
      · rw [if_neg h] at heq
        exact h (heq ▸ by decide)
    · rw [← all_dot_map_iff] at hdots
      simpa using hdots

/-- A plain name stays plain when a text without slashes follows. -/
theorem IsPlain.append {a b : String} (ha : IsPlain a) (hb : '/' ∉ b.toList) :
    IsPlain (a ++ b) := by
  obtain ⟨hslash, c, hc, hdot⟩ := ha
  rw [IsPlain, String.toList_append]
  refine ⟨fun hmem => ?_, c, List.mem_append_left _ hc, hdot⟩
  rcases List.mem_append.mp hmem with hmem | hmem
  · exact hslash hmem
  · exact hb hmem

/-- A plain name with an extension. -/
theorem IsPlain.extension {name extension : String} (hname : IsPlain name)
    (hextension : IsPlain extension) : IsPlain (name ++ "." ++ extension) :=
  (hname.append (by decide)).append hextension.1

/-- It stays plain with underscores at its end. -/
theorem IsPlain.underscored {name : String} (h : IsPlain name) (n : Nat) :
    IsPlain (underscored name n) := by
  refine h.append fun hmem => ?_
  rw [String.toList_ofList] at hmem
  exact absurd (List.eq_of_mem_replicate hmem) (by decide)

/-! ### Directories of operations -/

/-- The directories of operations are the path segments of ids, with underscores after them. -/
theorem OperationModule.exists_id_of_mem_groupsFrom {taken ids : List String} {group : String}
    (h : group ∈ (groupsFrom taken ids).1) :
    ∃ id ∈ ids, ∃ n, group = underscored (pathSegment id) n := by
  induction ids generalizing taken with
  | nil => exact absurd h List.not_mem_nil
  | cons id rest ih =>
      rw [groupsFrom] at h
      rcases List.mem_cons.mp h with rfl | h
      · obtain ⟨n, hn⟩ := freshName_eq_underscored taken (pathSegment id)
        exact ⟨id, List.mem_cons_self, n, hn⟩
      · obtain ⟨other, hother, hn⟩ := ih h
        exact ⟨other, List.mem_cons_of_mem _ hother, hn⟩

/-- The directories of operations are plain names. -/
theorem isPlain_of_mem_groups {api : Api} {options : OutputOptions} {group : String}
    (h : group ∈ (OperationModule.groups api options).1) : IsPlain group := by
  obtain ⟨id, -, n, rfl⟩ := OperationModule.exists_id_of_mem_groupsFrom h
  exact (isPlain_pathSegment id).underscored n

/-! ### Following paths -/

namespace Path

/-- A text without the separator is its only piece. -/
theorem split_of_not_mem {separator : Char} {cs : List Char} (h : separator ∉ cs) :
    split separator cs = [cs] := by
  induction cs with
  | nil => rfl
  | cons c cs ih =>
      rw [List.mem_cons, not_or] at h
      rw [split, if_neg (Ne.symm h.1), ih h.2]

/-- A text that is split has at least one piece. -/
theorem split_ne_nil (separator : Char) (cs : List Char) : split separator cs ≠ [] := by
  cases cs with
  | nil => exact List.cons_ne_nil _ _
  | cons c cs =>
      rw [split]
      split
      · exact List.cons_ne_nil _ _
      · split <;> exact List.cons_ne_nil _ _

/-- Splitting at a separator that stands between two texts splits each of them. -/
theorem split_append (separator : Char) (cs ds : List Char) :
    split separator (cs ++ separator :: ds) = split separator cs ++ split separator ds := by
  induction cs with
  | nil => simp only [List.nil_append, split, if_true, List.singleton_append]
  | cons c cs ih =>
      rw [List.cons_append, split, split, ih]
      split
      · rfl
      · cases hsplit : split separator cs with
        | nil => exact absurd hsplit (split_ne_nil separator cs)
        | cons piece rest => rfl

/-- The parts of two paths with a slash between them are those of the one and of the other. -/
theorem parts_slash (a b : String) : parts (a ++ "/" ++ b) = parts a ++ parts b := by
  have hslash : (a ++ "/" ++ b).toList = a.toList ++ '/' :: b.toList := by
    rw [String.toList_append, String.toList_append, List.append_assoc]
    rfl
  rw [parts, hslash, split_append, List.map_append, parts, parts]

/-- A plain name is its own only part. -/
theorem parts_of_isPlain {name : String} (h : IsPlain name) : parts name = [name] := by
  rw [parts, split_of_not_mem h.1, List.map_singleton, String.ofList_toList]

/-- A plain name leads one directory down. -/
theorem step_of_isPlain {name : String} (h : IsPlain name) (here : Location) :
    step here name = here ++ [name] := by
  obtain ⟨-, c, hc, hdot⟩ := h
  have hne : ∀ dots : String, dots.toList.all (· == '.') = true → name ≠ dots := by
    rintro dots hdots rfl
    exact hdot (beq_iff_eq.mp (List.all_eq_true.mp hdots c hc))
  have hstay : isStay name = false := by
    simp only [isStay, Bool.or_eq_false_iff, beq_eq_false_iff_ne]
    exact ⟨hne "" (by decide), hne "." (by decide)⟩
  rw [step, hstay, if_neg Bool.false_ne_true, if_neg (hne ".." (by decide))]

/-- A relative path followed by a name. -/
theorem resolve_slash {path name : String} (hpath : isAbsolute path = false) (hne : path ≠ "")
    (hname : IsPlain name) (here : Location) :
    resolve here (path ++ "/" ++ name) = resolve here path ++ [name] := by
  have habsolute : isAbsolute (path ++ "/" ++ name) = false := by
    have hhead : path.toList ≠ [] := fun h => hne (String.toList_eq_nil_iff.mp h)
    rw [isAbsolute, String.toList_append, String.toList_append, List.append_assoc,
      List.head?_append_of_ne_nil _ hhead]
    exact hpath
  rw [resolve, resolve, origin, origin, habsolute, hpath, parts_slash, parts_of_isPlain hname,
    List.foldl_append, List.foldl_cons, List.foldl_nil, step_of_isPlain hname]

/-- A plain name is a relative path. -/
theorem isAbsolute_of_isPlain {name : String} (h : IsPlain name) : isAbsolute name = false := by
  rw [isAbsolute, beq_eq_false_iff_ne]
  intro hhead
  exact h.1 (List.mem_of_mem_head? hhead)

/-- A plain name is not empty. -/
theorem IsPlain.ne_empty {name : String} (h : IsPlain name) : name ≠ "" := by
  rintro rfl
  obtain ⟨-, c, hc, -⟩ := h
  exact List.not_mem_nil hc

/-- A plain name leads to the place of that name right below. -/
theorem resolve_of_isPlain {name : String} (h : IsPlain name) (here : Location) :
    resolve here name = here ++ [name] := by
  rw [resolve, origin, isAbsolute_of_isPlain h, parts_of_isPlain h, List.foldl_cons,
    List.foldl_nil, step_of_isPlain h]
  rfl

end Path

end OpenApiZod

import Mathlib.Data.List.Forall2
import Mathlib.Tactic.Common
import OpenApiZod.Identifier

/-!
# Names with one identifier

`Identifier.ofName` does not keep names apart: every character that no identifier holds becomes an
underscore, and the affixes of leading digits and reserved words are underscores too.
`ofName_eq_ofName_iff` says which names come out the same. Either they are alike but for characters
that become underscores, or one of them is alike to the other one with its affix.

No identifier is a reserved word (`ofName_not_mem_reserved`), so no identifier is the namespace `z`.
A word without underscores is the identifier of that word alone (`eq_of_ofName_eq`).
-/

namespace OpenApiZod.Identifier

/-! ### Sanitized names -/

/-- A character for which an identifier has an underscore. -/
def Masked (c : Char) : Prop := isPart c = false ∨ c = '_'

/-- Character by character, the names are the same or identifiers have an underscore for both. -/
def Alike (a b : String) : Prop :=
  List.Forall₂ (fun c d => c = d ∨ Masked c ∧ Masked d) a.toList b.toList

/-- Each character is kept or becomes an underscore. -/
theorem toList_sanitize (name : String) :
    (sanitize name).toList = name.toList.map fun c => if isPart c then c else '_' :=
  String.toList_ofList

/-- Two texts are treated one by one. -/
theorem sanitize_append (a b : String) : sanitize (a ++ b) = sanitize a ++ sanitize b := by
  rw [← String.toList_inj, String.toList_append, toList_sanitize, toList_sanitize, toList_sanitize,
    String.toList_append, List.map_append]

/-- Two names become the same exactly if they are alike. -/
theorem sanitize_eq_sanitize_iff {a b : String} : sanitize a = sanitize b ↔ Alike a b := by
  have hmask : ∀ c d : Char, ((if isPart c then c else '_') = if isPart d then d else '_') ↔
      (c = d ∨ Masked c ∧ Masked d) := by
    intro c d
    rw [Masked, Masked]
    have hpart : isPart '_' = true := by decide
    cases hc : isPart c <;> cases hd : isPart d <;> grind
  rw [← String.toList_inj, toList_sanitize, toList_sanitize, Alike, ← List.forall₂_eq_eq_eq,
    List.forall₂_map_left_iff, List.forall₂_map_right_iff]
  simp only [hmask]

/-- A sanitized name without underscores is the name itself. -/
theorem eq_of_sanitize_eq {name word : String} (h : sanitize name = word)
    (hword : '_' ∉ word.toList) : name = word := by
  subst h
  rw [toList_sanitize] at hword
  rw [← String.toList_inj, toList_sanitize]
  refine (List.map_congr_left fun c hc => ?_).trans (List.map_id _) |>.symm
  by_contra hne
  have hmasked : (if isPart c then c else '_') = '_' := by
    split at hne
    · exact absurd rfl hne
    · rename_i hpart
      exact if_neg hpart
  refine hword (List.mem_map.mpr ⟨c, hc, ?_⟩)
  exact hmasked

/-! ### Affixes -/

/-- No reserved word has an underscore in it, is empty or begins with a digit. -/
theorem reserved_plain : ∀ word ∈ reserved,
    '_' ∉ word.toList ∧ word.toList.head?.all Char.isDigit = false := by
  decide +kernel

/-- The name with the affix that it gets in an identifier, if it gets one. -/
inductive Affixed : String → String → Prop
  | digit {name : String} (h : name.toList.head?.all Char.isDigit = true) :
      Affixed name ("_" ++ name)
  | reserved {name : String} (h : name ∈ reserved) : Affixed name (name ++ "_")

/-- A name starts with a digit before exactly if it does after. -/
theorem head?_sanitize_all_isDigit (name : String) :
    (sanitize name).toList.head?.all Char.isDigit = name.toList.head?.all Char.isDigit := by
  rw [toList_sanitize, List.head?_map]
  cases name.toList.head? with
  | none => rfl
  | some c =>
      show (if isPart c then c else '_').isDigit = c.isDigit
      cases hdigit : c.isDigit with
      | true =>
          have hpart : isPart c = true := by simp [isPart, Char.isAlphanum, hdigit]
          rw [if_pos hpart, hdigit]
      | false =>
          split
          · exact hdigit
          · decide

/-- A reserved word stays as it is. -/
theorem sanitize_of_mem_reserved {word : String} (h : word ∈ reserved) : sanitize word = word := by
  revert word
  decide +kernel

/-- No other name becomes one. -/
theorem sanitize_mem_reserved_iff {name : String} : sanitize name ∈ reserved ↔ name ∈ reserved := by
  constructor
  · intro h
    rwa [eq_of_sanitize_eq rfl (reserved_plain _ h).1]
  · intro h
    rwa [sanitize_of_mem_reserved h]

/-- An identifier is the sanitized name, with its affix if it gets one. -/
theorem ofName_eq (name : String) :
    (∃ name', Affixed name name' ∧ ofName name = sanitize name') ∨
      (name.toList.head?.all Char.isDigit = false ∧ name ∉ reserved) ∧
        ofName name = sanitize name := by
  rw [ofName]
  simp only [head?_sanitize_all_isDigit, sanitize_mem_reserved_iff]
  split
  · rename_i hdigit
    refine Or.inl ⟨_, .digit hdigit, ?_⟩
    rw [sanitize_append]
    rfl
  · rename_i hdigit
    split
    · rename_i hreserved
      refine Or.inl ⟨_, .reserved hreserved, ?_⟩
      rw [sanitize_append]
      rfl
    · rename_i hreserved
      exact Or.inr ⟨⟨(Bool.not_eq_true _).mp hdigit, hreserved⟩, rfl⟩

/-- A name with an affix has an underscore in its identifier. -/
theorem Affixed.underscore_mem {name name' : String} (h : Affixed name name') :
    '_' ∈ (sanitize name').toList := by
  cases h with
  | digit h =>
      rw [sanitize_append, String.toList_append]
      exact List.mem_append_left _ (by decide)
  | reserved h =>
      rw [sanitize_append, String.toList_append]
      exact List.mem_append_right _ (by decide)

/-- A name with its affix needs none any more. -/
theorem Affixed.ofName_eq_sanitize {name name' : String} (h : Affixed name name') :
    ofName name' = sanitize name' := by
  rcases ofName_eq name' with ⟨name'', h', heq⟩ | ⟨-, heq⟩
  · exfalso
    cases h' with
    | digit hdigit =>
        cases h with
        | digit h =>
            rw [String.toList_append] at hdigit
            exact Bool.false_ne_true hdigit
        | reserved h =>
            obtain ⟨-, hhead⟩ := reserved_plain _ h
            rw [String.toList_append] at hdigit
            cases hname : name.toList with
            | nil =>
                rw [hname] at hhead
                exact absurd hhead (by decide)
            | cons c cs =>
                rw [hname] at hhead hdigit
                exact Bool.false_ne_true (hhead.symm.trans hdigit)
    | reserved hreserved =>
        have hmem := h.underscore_mem
        rw [sanitize_of_mem_reserved hreserved] at hmem
        exact (reserved_plain _ hreserved).1 hmem
  · exact heq

/-- A name and the name with its affix have one identifier. -/
theorem Affixed.ofName_eq_ofName {name name' : String} (h : Affixed name name') :
    ofName name' = ofName name := by
  rw [h.ofName_eq_sanitize, ofName]
  simp only [head?_sanitize_all_isDigit, sanitize_mem_reserved_iff]
  cases h with
  | digit h =>
      rw [if_pos h, sanitize_append]
      rfl
  | reserved h =>
      rw [if_neg (Bool.eq_false_iff.mp (reserved_plain _ h).2), if_pos h, sanitize_append]
      rfl

/-! ### Names with one identifier -/

/-- The names are alike, or one of them is alike to the other one with its affix. -/
def SharesIdentifier (a b : String) : Prop :=
  Alike a b ∨ (∃ a', Affixed a a' ∧ Alike a' b) ∨ ∃ b', Affixed b b' ∧ Alike a b'

/-- Names that are written alike in identifiers have one identifier. -/
theorem ofName_congr {a b : String} (h : sanitize a = sanitize b) : ofName a = ofName b := by
  rw [ofName, h, ← ofName]

/-- Names that both get affixes have one identifier only if they are alike without them. -/
theorem alike_of_affixed {a a' b b' : String} (ha : Affixed a a') (hb : Affixed b b')
    (h : sanitize a' = sanitize b') : Alike a b := by
  have hne : ∀ {digit word : String}, word ∈ reserved →
      sanitize ("_" ++ digit) ≠ sanitize (word ++ "_") := by
    intro digit word hword heq
    have hplain := reserved_plain word hword
    rw [sanitize_append, sanitize_append, sanitize_of_mem_reserved hword, ← String.toList_inj,
      String.toList_append, String.toList_append] at heq
    cases hlist : word.toList with
    | nil =>
        rw [hlist] at hplain
        exact absurd hplain.2 (by decide)
    | cons c cs =>
        rw [hlist] at hplain heq
        exact hplain.1 ((List.cons_eq_cons.mp heq).1 ▸ List.mem_cons_self)
  rw [← sanitize_eq_sanitize_iff]
  cases ha with
  | digit ha =>
      cases hb with
      | digit hb =>
          rw [sanitize_append, sanitize_append] at h
          exact (String.append_right_inj _).mp h
      | reserved hb => exact absurd h (hne hb)
  | reserved ha =>
      cases hb with
      | digit hb => exact absurd h.symm (hne ha)
      | reserved hb =>
          rw [sanitize_append, sanitize_append] at h
          exact (String.append_left_inj _).mp h

/-- Which names have one identifier. -/
theorem ofName_eq_ofName_iff {a b : String} : ofName a = ofName b ↔ SharesIdentifier a b := by
  constructor
  · intro h
    rcases ofName_eq a with ⟨a', ha, ha'⟩ | ⟨-, ha'⟩ <;>
      rcases ofName_eq b with ⟨b', hb, hb'⟩ | ⟨-, hb'⟩
    · exact Or.inl (alike_of_affixed ha hb (ha'.symm.trans (h.trans hb')))
    · exact Or.inr (Or.inl ⟨a', ha, sanitize_eq_sanitize_iff.mp (ha'.symm.trans (h.trans hb'))⟩)
    · exact Or.inr (Or.inr ⟨b', hb, sanitize_eq_sanitize_iff.mp (ha'.symm.trans (h.trans hb'))⟩)
    · exact Or.inl (sanitize_eq_sanitize_iff.mp (ha'.symm.trans (h.trans hb')))
  · rintro (h | ⟨a', ha, h⟩ | ⟨b', hb, h⟩)
    · exact ofName_congr (sanitize_eq_sanitize_iff.mpr h)
    · rw [← ha.ofName_eq_ofName, ofName_congr (sanitize_eq_sanitize_iff.mpr h)]
    · rw [← hb.ofName_eq_ofName, ofName_congr (sanitize_eq_sanitize_iff.mpr h)]

/-- An identifier is no reserved word, and in particular not the namespace `z`. -/
theorem ofName_not_mem_reserved (name : String) : ofName name ∉ reserved := by
  rcases ofName_eq name with ⟨name', h, heq⟩ | ⟨⟨-, h⟩, heq⟩
  · rw [heq]
    exact fun hmem => (reserved_plain _ hmem).1 h.underscore_mem
  · rw [heq, sanitize_mem_reserved_iff]
    exact h

/-- A word without underscores is the identifier of no name but itself. -/
theorem eq_of_ofName_eq {name word : String} (h : ofName name = word)
    (hword : '_' ∉ word.toList) : name = word := by
  rcases ofName_eq name with ⟨name', haffix, heq⟩ | ⟨-, heq⟩
  · rw [← h, heq] at hword
    exact absurd haffix.underscore_mem hword
  · exact eq_of_sanitize_eq (heq.symm.trans h) hword

end OpenApiZod.Identifier

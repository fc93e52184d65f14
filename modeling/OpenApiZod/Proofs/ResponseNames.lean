import OpenApiZod.Module.Operation
import OpenApiZod.Proofs.ImportPaths
import OpenApiZod.Proofs.NameCharacters
import OpenApiZod.Proofs.SharedIdentifiers

/-!
# Constants of responses

The constant of a response is `Response` with the status after it. A status that begins with a digit
is sanitized, any other one is written as words with capitals. `SharesConstant` says when two
statuses get one constant (`responseName_eq_iff`). Nothing in a module keeps them apart, so
`nodup_exports_iff` says which modules declare a constant twice, and which constants are no
identifiers. The usual statuses, codes and `default`, do neither.
-/

namespace OpenApiZod

open Naming (pascalName)
open Text (isAlphanumeric)

/-- A status that begins with a digit. -/
def IsCode (status : String) : Prop := status.toList.head?.any Char.isDigit = true

instance (status : String) : Decidable (IsCode status) := inferInstanceAs (Decidable (_ = true))

/-- Two statuses have one constant. Codes do if they are alike but for what identifiers have an
underscore for, other statuses if they are written as the same words. A code and another status do
if the code is an identifier's part and the other one is written like it. -/
def SharesConstant (s t : String) : Prop :=
  if IsCode s then
    if IsCode t then Identifier.Alike s t
    else Identifier.sanitize s = s ∧ pascalName t = s
  else
    if IsCode t then Identifier.sanitize t = t ∧ pascalName s = t
    else pascalName s = pascalName t

/-- The constant of a code keeps its characters, with underscores for those that no identifier has.
-/
theorem responseName_of_isCode {status : String} (h : IsCode status) :
    responseName status = "Response" ++ Identifier.sanitize status := if_pos h

/-- The constant of another status has its words. -/
theorem responseName_of_not_isCode {status : String} (h : ¬ IsCode status) :
    responseName status = "Response" ++ pascalName status := if_neg h

/-- A code is written like words only if it stays as it is. -/
theorem sanitize_eq_pascalName_iff {s t : String} :
    Identifier.sanitize s = pascalName t ↔ Identifier.sanitize s = s ∧ pascalName t = s := by
  constructor
  · intro h
    have hs := Identifier.eq_of_sanitize_eq h (Identifier.fits_pascalName t).underscore_not_mem
    exact ⟨h.trans hs.symm, hs.symm⟩
  · rintro ⟨hs, ht⟩
    rw [hs, ht]

/-- Two statuses have the same constant exactly if they share it. -/
theorem responseName_eq_iff {s t : String} :
    responseName s = responseName t ↔ SharesConstant s t := by
  rw [SharesConstant]
  by_cases hs : IsCode s <;> by_cases ht : IsCode t
  · rw [if_pos hs, if_pos ht, responseName_of_isCode hs, responseName_of_isCode ht,
      String.append_right_inj, Identifier.sanitize_eq_sanitize_iff]
  · rw [if_pos hs, if_neg ht, responseName_of_isCode hs, responseName_of_not_isCode ht,
      String.append_right_inj, sanitize_eq_pascalName_iff]
  · rw [if_neg hs, if_pos ht, responseName_of_not_isCode hs, responseName_of_isCode ht,
      String.append_right_inj, eq_comm, sanitize_eq_pascalName_iff]
  · rw [if_neg hs, if_neg ht, responseName_of_not_isCode hs, responseName_of_not_isCode ht,
      String.append_right_inj]

/-! ### Identifiers -/

namespace Identifier

/-- A name that a constant can have: an identifier of any script that begins with an ASCII
character, and no reserved word. -/
structure IsBindable (name : String) : Prop where
  start : name.toList.head?.any isStart = true
  parts : ∀ c ∈ name.toList.tail, isNamePart c = true
  notReserved : name ∉ reserved

/-- An ASCII part of an identifier may stand in one of any script. -/
theorem isNamePart_of_isPart {c : Char} (h : isPart c = true) : isNamePart c = true := by
  have hrange := toNat_of_isPart h
  rw [isNamePart, if_pos (by omega), h]

/-- What is written for a name in an identifier holds parts of identifiers only. -/
theorem isPart_of_mem_sanitize {name : String} {c : Char} (h : c ∈ (sanitize name).toList) :
    isPart c = true := by
  rw [toList_sanitize] at h
  obtain ⟨d, -, rfl⟩ := List.mem_map.mp h
  split
  · assumption
  · decide

/-- The characters of a constant. -/
theorem toList_response (rest : String) : ("Response" ++ rest).toList =
    'R' :: (['e', 's', 'p', 'o', 'n', 's', 'e'] ++ rest.toList) := by
  rw [String.toList_append]
  rfl

/-- The word before the status is part of an identifier. -/
theorem all_isPart_response : ['e', 's', 'p', 'o', 'n', 's', 'e'].all isPart = true := by decide

/-- No reserved word begins like the constant of a response. -/
theorem isBindable_response_iff {rest : String} :
    IsBindable ("Response" ++ rest) ↔ ∀ c ∈ rest.toList, isNamePart c = true := by
  constructor
  · rintro ⟨-, hparts, -⟩ c hc
    rw [toList_response] at hparts
    exact hparts c (List.mem_append_right _ hc)
  · intro h
    refine ⟨?_, ?_, fun hreserved => ?_⟩
    · rw [toList_response]
      show isStart 'R' = true
      decide
    · rw [toList_response]
      refine List.forall_mem_append.mpr ⟨fun c hc => isNamePart_of_isPart ?_, h⟩
      exact List.all_eq_true.mp all_isPart_response c hc
    · have hhead : ∀ word ∈ reserved, word.toList.head? ≠ some 'R' := by decide
      exact hhead _ hreserved (by rw [toList_response]; rfl)

/-- What comes after `Response` decides whether the constant is an ASCII identifier. -/
theorem isIdentifier_response {rest : String} (h : ∀ c ∈ rest.toList, isPart c = true) :
    isIdentifier ("Response" ++ rest) = true := by
  rw [isIdentifier, toList_response]
  show (isStart 'R' && (['e', 's', 'p', 'o', 'n', 's', 'e'] ++ rest.toList).all isPart) = true
  rw [List.all_append, Bool.and_eq_true, Bool.and_eq_true, @List.all_eq_true _ _ rest.toList]
  exact ⟨by decide, all_isPart_response, h⟩

end Identifier

/-- A constant can be bound exactly if its status is a code, or has no letter or number that
identifiers exclude. -/
theorem isBindable_responseName_iff {status : String} :
    Identifier.IsBindable (responseName status) ↔
      IsCode status ∨ ∀ c ∈ status.toList, isAlphanumeric c = true →
        Identifier.isNamePart c = true := by
  by_cases h : IsCode status
  · rw [responseName_of_isCode h, Identifier.isBindable_response_iff]
    refine iff_of_true (fun c hc => ?_) (Or.inl h)
    exact Identifier.isNamePart_of_isPart (Identifier.isPart_of_mem_sanitize hc)
  · rw [responseName_of_not_isCode h, Identifier.isBindable_response_iff, or_iff_right h,
      (Identifier.fits_pascalName status).parts]
    simp only [List.mem_filter, and_imp]

/-! ### Modules -/

/-- The constant of a response is not that of the request body. -/
theorem third_responseName (status : String) : (responseName status).toList[2]? = some 's' := by
  rw [responseName]
  split <;> simp

/-- A usual status: a code that is part of an identifier, or `default`. -/
def IsUsual (status : String) : Prop :=
  IsCode status ∧ Identifier.sanitize status = status ∨ status = "default"

/-- Usual statuses share no constant. -/
theorem IsUsual.eq_of_sharesConstant {s t : String} (hs : IsUsual s) (ht : IsUsual t)
    (h : SharesConstant s t) : s = t := by
  have hdefault : ¬ IsCode "default" := by decide
  have hpascal : ¬ IsCode (pascalName "default") := by decide +kernel
  rw [SharesConstant] at h
  rcases hs with ⟨hs, hs'⟩ | rfl <;> rcases ht with ⟨ht, ht'⟩ | rfl
  · rw [if_pos hs, if_pos ht, ← Identifier.sanitize_eq_sanitize_iff, hs', ht'] at h
    exact h
  · rw [if_pos hs, if_neg hdefault] at h
    exact absurd (h.2 ▸ hs) hpascal
  · rw [if_neg hdefault, if_pos ht] at h
    exact absurd (h.2 ▸ ht) hpascal
  · rfl

/-- The constants of usual statuses are identifiers. -/
theorem IsUsual.isIdentifier {status : String} (h : IsUsual status) :
    Identifier.isIdentifier (responseName status) = true := by
  rcases h with ⟨hcode, -⟩ | rfl
  · rw [responseName_of_isCode hcode]
    exact Identifier.isIdentifier_response fun c hc => Identifier.isPart_of_mem_sanitize hc
  · decide +kernel

namespace OperationModule

section Exports

variable {components : ComponentTable} {options : OutputOptions} {o : OperationRecord}

/-- An operation module exports its request, if it has one, and then its responses. -/
theorem exports_ofOperation : (ofOperation components options o).exports =
    (o.requestBody.map fun _ => requestName).toList ++ o.responses.keys.map responseName := by
  rw [Module.exports, Table.keys]
  show List.map _ (Option.toList _ ++ List.map _ _) = _
  rw [List.map_append, List.map_map, List.map_map]
  congr 1
  cases o.requestBody <;> rfl

/-- Its exports differ exactly if different statuses have different constants. -/
theorem nodup_exports_iff_injOn : (ofOperation components options o).exports.Nodup ↔
    ∀ s ∈ o.responses.keys, ∀ t ∈ o.responses.keys, responseName s = responseName t → s = t := by
  have hapart : ∀ name ∈ (o.requestBody.map fun _ => requestName).toList,
      ∀ name' ∈ o.responses.keys.map responseName, name ≠ name' := by
    rintro name hname name' hname' rfl
    obtain ⟨body, -, rfl⟩ := Option.map_eq_some_iff.mp (Option.mem_toList.mp hname)
    obtain ⟨status, -, heq⟩ := List.mem_map.mp hname'
    have hthird := third_responseName status
    rw [heq] at hthird
    exact absurd hthird (by decide)
  have hrequest : (o.requestBody.map fun _ => requestName).toList.Nodup := by
    cases o.requestBody
    · exact List.nodup_nil
    · exact List.nodup_singleton _
  have hkeys : o.responses.keys.Nodup := o.responses.nodup
  rw [exports_ofOperation, List.nodup_append, and_iff_right hrequest, and_iff_left hapart,
    List.nodup_map_iff_inj_on hkeys]

end Exports

/-- **Constants of operation modules.** The module of an operation declares the constant of the
request body, if there is one, and that of each status. They are all different exactly if no two
statuses share a constant. The constant of a status can be declared exactly if the status is a code,
or all letters and numbers in it may stand in identifiers. If all statuses are usual ones, all
constants are different, and ASCII identifiers. -/
theorem nodup_exports_iff (components : ComponentTable) (options : OutputOptions)
    (o : OperationRecord) :
    let m := ofOperation components options o
    m.exports =
        (o.requestBody.map fun _ => "Request").toList ++ o.responses.keys.map responseName ∧
      (m.exports.Nodup ↔
        ∀ s ∈ o.responses.keys, ∀ t ∈ o.responses.keys, SharesConstant s t → s = t) ∧
      (∀ s ∈ o.responses.keys, Identifier.IsBindable (responseName s) ↔
        IsCode s ∨ ∀ c ∈ s.toList, isAlphanumeric c = true → Identifier.isNamePart c = true) ∧
      ((∀ s ∈ o.responses.keys, IsUsual s) →
        m.exports.Nodup ∧ ∀ name ∈ m.exports, Identifier.isIdentifier name = true) := by
  intro m
  have hnodup : m.exports.Nodup ↔
      ∀ s ∈ o.responses.keys, ∀ t ∈ o.responses.keys, SharesConstant s t → s = t := by
    rw [nodup_exports_iff_injOn]
    simp only [responseName_eq_iff]
  refine ⟨exports_ofOperation, hnodup, fun s _ => isBindable_responseName_iff, fun h => ⟨?_, ?_⟩⟩
  · exact hnodup.mpr fun s hs t ht hshares => (h s hs).eq_of_sharesConstant (h t ht) hshares
  · intro name hname
    rw [show m.exports = _ from exports_ofOperation] at hname
    rcases List.mem_append.mp hname with hname | hname
    · obtain ⟨body, -, rfl⟩ := Option.map_eq_some_iff.mp (Option.mem_toList.mp hname)
      decide
    · obtain ⟨status, hstatus, rfl⟩ := List.mem_map.mp hname
      exact (h status hstatus).isIdentifier

/-- The statuses `default` and `Default` have one constant. A superscript is a number, but may not
stand in an identifier. -/
theorem exports_clash :
    let o : OperationRecord := ⟨"listPets", none, .get, "/pets", none, .ofList
      [("default", ⟨"", some .boolean⟩), ("Default", ⟨"", some .null⟩), ("x²", ⟨"", none⟩)]⟩
    (ofOperation .empty .default o).exports =
        ["ResponseDefault", "ResponseDefault", "ResponseX²"] ∧
      ¬ Identifier.IsBindable "ResponseX²" := by
  refine ⟨by decide +kernel, fun h => ?_⟩
  have hpart : Identifier.isNamePart '²' = true := h.parts '²' (by decide)
  exact absurd hpart (by decide +kernel)

end OperationModule

end OpenApiZod

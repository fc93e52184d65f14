import OpenApiZod.Proofs.IndexNames
import OpenApiZod.Proofs.ResponseNames

/-!
# Namespaces as identifiers

The namespace of an operation is its id in camel case. Nothing makes an identifier of it: an id
whose first letter or number is a digit gives a namespace that begins with the digit, and letters
and numbers that may not stand in an identifier stay. `SpellsName` says which ids give identifiers
(`isName_camelName_iff`); it is enough to look at the letters and numbers of the id, since the small
form of a letter may begin an identifier exactly if the letter may.

The grammar of an export takes a reserved word for a namespace as well. Where the namespace is to be
a binding too, the id must not spell one (`Index.isName_namespaces_iff`).
-/

namespace OpenApiZod

open Naming (camelName)
open Text (isAlphanumeric)

namespace Identifier

open Text

/-! ### First characters -/

/-- Letters and numbers that may stand in an identifier, but not first: digits and vowel signs,
those with `ID_Continue` and without `ID_Start`. Code points between them that are neither letters
nor numbers are covered too. -/
def lateRuns : List Run :=
  [⟨0x30, 0x39, 1⟩, ⟨0x345, 0x36F, 1⟩, ⟨0x5B0, 0x5C7, 1⟩, ⟨0x610, 0x61A, 1⟩, ⟨0x64B, 0x669, 1⟩,
   ⟨0x670, 0x670, 1⟩, ⟨0x6D6, 0x6E4, 1⟩, ⟨0x6E7, 0x6ED, 1⟩, ⟨0x6F0, 0x6F9, 1⟩, ⟨0x711, 0x711, 1⟩,
   ⟨0x730, 0x73F, 1⟩, ⟨0x7A6, 0x7B0, 1⟩, ⟨0x7C0, 0x7C9, 1⟩, ⟨0x816, 0x817, 1⟩, ⟨0x81B, 0x823, 1⟩,
   ⟨0x825, 0x827, 1⟩, ⟨0x829, 0x82C, 1⟩, ⟨0x897, 0x897, 1⟩, ⟨0x8D4, 0x903, 1⟩, ⟨0x93A, 0x93B, 1⟩,
   ⟨0x93E, 0x94F, 1⟩, ⟨0x955, 0x957, 1⟩, ⟨0x962, 0x96F, 1⟩, ⟨0x981, 0x983, 1⟩, ⟨0x9BE, 0x9CC, 1⟩,
   ⟨0x9D7, 0x9D7, 1⟩, ⟨0x9E2, 0x9EF, 1⟩, ⟨0xA01, 0xA03, 1⟩, ⟨0xA3E, 0xA51, 1⟩, ⟨0xA66, 0xA71, 1⟩,
   ⟨0xA75, 0xA83, 1⟩, ⟨0xABE, 0xACC, 1⟩, ⟨0xAE2, 0xAEF, 1⟩, ⟨0xAFA, 0xB03, 1⟩, ⟨0xB3E, 0xB57, 1⟩,
   ⟨0xB62, 0xB6F, 1⟩, ⟨0xB82, 0xB82, 1⟩, ⟨0xBBE, 0xBCC, 1⟩, ⟨0xBD7, 0xBEF, 1⟩, ⟨0xC00, 0xC04, 1⟩,
   ⟨0xC3E, 0xC56, 1⟩, ⟨0xC62, 0xC6F, 1⟩, ⟨0xC81, 0xC83, 1⟩, ⟨0xCBE, 0xCD6, 1⟩, ⟨0xCE2, 0xCEF, 1⟩,
   ⟨0xCF3, 0xD03, 1⟩, ⟨0xD3E, 0xD4C, 1⟩, ⟨0xD57, 0xD57, 1⟩, ⟨0xD62, 0xD6F, 1⟩, ⟨0xD81, 0xD83, 1⟩,
   ⟨0xDCF, 0xDF3, 1⟩, ⟨0xE31, 0xE31, 1⟩, ⟨0xE34, 0xE3A, 1⟩, ⟨0xE4D, 0xE59, 1⟩, ⟨0xEB1, 0xEB1, 1⟩,
   ⟨0xEB4, 0xEBC, 1⟩, ⟨0xECD, 0xED9, 1⟩, ⟨0xF20, 0xF29, 1⟩, ⟨0xF71, 0xF83, 1⟩, ⟨0xF8D, 0xFBC, 1⟩,
   ⟨0x102B, 0x103E, 1⟩, ⟨0x1040, 0x1049, 1⟩, ⟨0x1056, 0x1059, 1⟩, ⟨0x105E, 0x1060, 1⟩,
   ⟨0x1062, 0x1064, 1⟩, ⟨0x1067, 0x106D, 1⟩, ⟨0x1071, 0x1074, 1⟩, ⟨0x1082, 0x108D, 1⟩,
   ⟨0x108F, 0x109D, 1⟩, ⟨0x1369, 0x1371, 1⟩, ⟨0x1712, 0x1713, 1⟩, ⟨0x1732, 0x1733, 1⟩,
   ⟨0x1752, 0x1753, 1⟩, ⟨0x1772, 0x1773, 1⟩, ⟨0x17B6, 0x17C8, 1⟩, ⟨0x17E0, 0x17E9, 1⟩,
   ⟨0x1810, 0x1819, 1⟩, ⟨0x18A9, 0x18A9, 1⟩, ⟨0x1920, 0x194F, 1⟩, ⟨0x19D0, 0x19DA, 1⟩,
   ⟨0x1A17, 0x1A1B, 1⟩, ⟨0x1A55, 0x1A99, 1⟩, ⟨0x1ABF, 0x1B04, 1⟩, ⟨0x1B35, 0x1B43, 1⟩,
   ⟨0x1B50, 0x1B82, 1⟩, ⟨0x1BA1, 0x1BAD, 1⟩, ⟨0x1BB0, 0x1BB9, 1⟩, ⟨0x1BE7, 0x1BF1, 1⟩,
   ⟨0x1C24, 0x1C49, 1⟩, ⟨0x1C50, 0x1C59, 1⟩, ⟨0x1DD3, 0x1DF4, 1⟩, ⟨0x2DE0, 0x2DFF, 1⟩,
   ⟨0xA620, 0xA629, 1⟩, ⟨0xA674, 0xA67B, 1⟩, ⟨0xA69E, 0xA69F, 1⟩, ⟨0xA802, 0xA802, 1⟩,
   ⟨0xA80B, 0xA80B, 1⟩, ⟨0xA823, 0xA827, 1⟩, ⟨0xA880, 0xA881, 1⟩, ⟨0xA8B4, 0xA8D9, 1⟩,
   ⟨0xA8FF, 0xA909, 1⟩, ⟨0xA926, 0xA92A, 1⟩, ⟨0xA947, 0xA952, 1⟩, ⟨0xA980, 0xA983, 1⟩,
   ⟨0xA9B4, 0xA9BF, 1⟩, ⟨0xA9D0, 0xA9D9, 1⟩, ⟨0xA9E5, 0xA9E5, 1⟩, ⟨0xA9F0, 0xA9F9, 1⟩,
   ⟨0xAA29, 0xAA36, 1⟩, ⟨0xAA43, 0xAA43, 1⟩, ⟨0xAA4C, 0xAA59, 1⟩, ⟨0xAA7B, 0xAA7D, 1⟩,
   ⟨0xAAB0, 0xAAB0, 1⟩, ⟨0xAAB2, 0xAAB4, 1⟩, ⟨0xAAB7, 0xAAB8, 1⟩, ⟨0xAABE, 0xAABE, 1⟩,
   ⟨0xAAEB, 0xAAEF, 1⟩, ⟨0xAAF5, 0xAAF5, 1⟩, ⟨0xABE3, 0xABF9, 1⟩, ⟨0xFB1E, 0xFB1E, 1⟩,
   ⟨0xFF10, 0xFF19, 1⟩, ⟨0x10376, 0x1037A, 1⟩, ⟨0x104A0, 0x104A9, 1⟩, ⟨0x10A01, 0x10A0F, 1⟩,
   ⟨0x10D24, 0x10D49, 1⟩, ⟨0x10D69, 0x10D69, 1⟩, ⟨0x10EAB, 0x10EAC, 1⟩, ⟨0x10EFA, 0x10EFC, 1⟩,
   ⟨0x11000, 0x11002, 1⟩, ⟨0x11038, 0x11045, 1⟩, ⟨0x11066, 0x1106F, 1⟩, ⟨0x11073, 0x11074, 1⟩,
   ⟨0x11080, 0x11082, 1⟩, ⟨0x110B0, 0x110C2, 1⟩, ⟨0x110F0, 0x11102, 1⟩, ⟨0x11127, 0x1113F, 1⟩,
   ⟨0x11145, 0x11146, 1⟩, ⟨0x11180, 0x11182, 1⟩, ⟨0x111B3, 0x111BF, 1⟩, ⟨0x111CE, 0x111D9, 1⟩,
   ⟨0x1122C, 0x1123E, 1⟩, ⟨0x11241, 0x11241, 1⟩, ⟨0x112DF, 0x11303, 1⟩, ⟨0x1133E, 0x1134C, 1⟩,
   ⟨0x11357, 0x11357, 1⟩, ⟨0x11362, 0x11363, 1⟩, ⟨0x113B8, 0x113CD, 1⟩, ⟨0x11435, 0x11445, 1⟩,
   ⟨0x11450, 0x11459, 1⟩, ⟨0x114B0, 0x114C1, 1⟩, ⟨0x114D0, 0x114D9, 1⟩, ⟨0x115AF, 0x115BE, 1⟩,
   ⟨0x115DC, 0x115DD, 1⟩, ⟨0x11630, 0x11640, 1⟩, ⟨0x11650, 0x11659, 1⟩, ⟨0x116AB, 0x116B5, 1⟩,
   ⟨0x116C0, 0x116E3, 1⟩, ⟨0x1171D, 0x11739, 1⟩, ⟨0x1182C, 0x11838, 1⟩, ⟨0x118E0, 0x118E9, 1⟩,
   ⟨0x11930, 0x1193C, 1⟩, ⟨0x11940, 0x11940, 1⟩, ⟨0x11942, 0x11959, 1⟩, ⟨0x119D1, 0x119DF, 1⟩,
   ⟨0x119E4, 0x119E4, 1⟩, ⟨0x11A01, 0x11A0A, 1⟩, ⟨0x11A35, 0x11A39, 1⟩, ⟨0x11A3B, 0x11A3E, 1⟩,
   ⟨0x11A51, 0x11A5B, 1⟩, ⟨0x11A8A, 0x11A97, 1⟩, ⟨0x11B60, 0x11B67, 1⟩, ⟨0x11BF0, 0x11BF9, 1⟩,
   ⟨0x11C2F, 0x11C3E, 1⟩, ⟨0x11C50, 0x11C59, 1⟩, ⟨0x11C92, 0x11CB6, 1⟩, ⟨0x11D31, 0x11D43, 1⟩,
   ⟨0x11D47, 0x11D59, 1⟩, ⟨0x11D8A, 0x11D96, 1⟩, ⟨0x11DA0, 0x11DA9, 1⟩, ⟨0x11DE0, 0x11DE9, 1⟩,
   ⟨0x11EF3, 0x11F01, 1⟩, ⟨0x11F03, 0x11F03, 1⟩, ⟨0x11F34, 0x11F59, 1⟩, ⟨0x1611E, 0x16139, 1⟩,
   ⟨0x16A60, 0x16A69, 1⟩, ⟨0x16AC0, 0x16AC9, 1⟩, ⟨0x16B50, 0x16B59, 1⟩, ⟨0x16D70, 0x16D79, 1⟩,
   ⟨0x16F4F, 0x16F4F, 1⟩, ⟨0x16F51, 0x16F92, 1⟩, ⟨0x16FF0, 0x16FF1, 1⟩, ⟨0x1BC9E, 0x1CCF9, 1⟩,
   ⟨0x1D7CE, 0x1D7FF, 1⟩, ⟨0x1E000, 0x1E02A, 1⟩, ⟨0x1E08F, 0x1E08F, 1⟩, ⟨0x1E140, 0x1E149, 1⟩,
   ⟨0x1E2F0, 0x1E2F9, 1⟩, ⟨0x1E4F0, 0x1E4F9, 1⟩, ⟨0x1E5F1, 0x1E5FA, 1⟩, ⟨0x1E6E3, 0x1E6E3, 1⟩,
   ⟨0x1E6E6, 0x1E6E6, 1⟩, ⟨0x1E6EE, 0x1E6EF, 1⟩, ⟨0x1E6F5, 0x1E6F5, 1⟩, ⟨0x1E947, 0x1E947, 1⟩,
   ⟨0x1E950, 0x1E959, 1⟩, ⟨0x1FBF0, 0x1FBF9, 1⟩]

/-- Characters above U+007F that may start an identifier and are neither letters nor numbers. -/
def startMarkRuns : List Run :=
  [⟨0x2118, 0x2118, 1⟩, ⟨0x212E, 0x212E, 1⟩, ⟨0x309B, 0x309C, 1⟩]

/-- A letter or number that may stand in an identifier, but not first. -/
def isLate (c : Char) : Bool := lateRuns.any (·.covers c.toNat)

/-- A character that may start an identifier. -/
def isNameStart (c : Char) : Bool :=
  if c.toNat < 0x80 then isStart c
  else if isAlphanumeric c then !isStray c && !isLate c
  else startMarkRuns.any (·.covers c.toNat)

/-- A name of identifier characters of any script, the first of which may start one. Reserved words
are such names. -/
structure IsName (name : String) : Prop where
  start : name.toList.head?.any isNameStart = true
  parts : ∀ c ∈ name.toList, isNamePart c = true

/-- None from `low` to `high` is late. -/
def earlyBetween (low high : Nat) : Bool := lateRuns.all (avoids low high)

/-- No character of a checked range is one that may only come later in a name. -/
theorem not_isLate_of_between {low high : Nat} (h : earlyBetween low high = true) {c : Char}
    (hlow : low ≤ c.toNat) (hhigh : c.toNat ≤ high) : isLate c = false :=
  not_covers_of_avoids h hlow hhigh

/-- The shift moves no late code points, and none to such. -/
def shiftEarly (s : Shift) : Bool :=
  earlyBetween s.first s.last &&
    earlyBetween (s.first + s.distance).toNat (s.last + s.distance).toNat

/-- No shift to lower case moves a character across that boundary. -/
theorem shiftEarly_lowerShifts : lowerShifts.all shiftEarly = true := by decide +kernel

/-- In ASCII, letters start identifiers and digits do not, and small forms are of the same kind. -/
theorem ascii_starts : (List.range 0x80).all fun n => let c := Char.ofNat n
    !c.isAlphanum || (isNameStart c == (isNamePart c && !isLate c)) &&
      (isNameStart c.toLower == isNameStart c) := by
  decide +kernel

/-- In ASCII, lowering a letter or digit does not change whether a name may start with it. -/
theorem isNameStart_of_ascii {c : Char} (hascii : c.toNat < 0x80)
    (hc : isAlphanumeric c = true) :
    isNameStart c = (isNamePart c && !isLate c) ∧ isNameStart c.toLower = isNameStart c := by
  have h := List.all_eq_true.mp ascii_starts _ (List.mem_range.mpr hascii)
  rw [isAlphanumeric, if_pos hascii] at hc
  simpa [hc] using h

/-- A letter or number may start an identifier if it may stand in one and is not late. -/
theorem isNameStart_of_isAlphanumeric {c : Char} (hc : isAlphanumeric c = true) :
    isNameStart c = (isNamePart c && !isLate c) := by
  by_cases hascii : c.toNat < 0x80
  · exact (isNameStart_of_ascii hascii hc).1
  · rw [isNameStart, if_neg hascii, if_pos hc, isNamePart_of_isAlphanumeric hc]

/-- Nor does it in any run of characters that lowering shifts. -/
theorem isNameStart_of_shift {s : Shift} (hs : s ∈ lowerShifts) {c : Char}
    (hc : isAlphanumeric c = true) {n : Nat} (hn : s.image? c.toNat = some n) :
    isNameStart (Char.ofNat n) = isNameStart c := by
  have hfits := List.all_eq_true.mp shiftFits_lowerShifts s hs
  have hearly := List.all_eq_true.mp shiftEarly_lowerShifts s hs
  obtain ⟨r, hr, himage⟩ := exists_rangeFits hfits hn
  obtain ⟨htoNat, hletter⟩ := letter_of_rangeFits hr himage
  have hparts : isNamePart (Char.ofNat n) = isNamePart c := by
    simpa using (fits_of_shift hfits hc hn).parts
  simp only [shiftEarly, Bool.and_eq_true] at hearly
  simp only [Shift.image?, Option.ite_none_right_eq_some, Bool.and_eq_true, decide_eq_true_eq,
    Option.some.injEq] at hn
  obtain ⟨⟨⟨hfirst, hlast⟩, -⟩, rfl⟩ := hn
  rw [isNameStart_of_isAlphanumeric hletter, isNameStart_of_isAlphanumeric hc, hparts,
    not_isLate_of_between hearly.1 hfirst hlast,
    not_isLate_of_between hearly.2 (by omega) (by omega)]

/-- The small form of a letter or number starts an identifier exactly if that does. -/
theorem exists_head_lowerForm {c : Char} (hc : isAlphanumeric c = true) :
    ∃ d rest, lowerForm c = d :: rest ∧ isNameStart d = isNameStart c := by
  rw [lowerForm]
  split
  · rename_i hascii
    exact ⟨_, _, rfl, (isNameStart_of_ascii hascii hc).2⟩
  · rw [mapCase]
    split
    · rename_i codes hcodes
      have hmem := mem_of_lookup_eq_some hcodes
      simp only [lowerExpansions, List.mem_singleton, Prod.mk.injEq] at hmem
      obtain ⟨htoNat, rfl⟩ := hmem
      obtain rfl : c = Char.ofNat 0x130 := by rw [← htoNat, Char.ofNat_toNat]
      exact ⟨_, _, rfl, by decide⟩
    · cases hshift : lowerShifts.findSome? (·.image? c.toNat) with
      | none => exact ⟨_, _, rfl, rfl⟩
      | some n =>
          obtain ⟨s, hs, hn⟩ := List.exists_of_findSome?_eq_some hshift
          exact ⟨_, _, rfl, isNameStart_of_shift hs hc hn⟩

/-- A lowered word starts with a character that starts a name exactly if the word's own first one
does. -/
theorem exists_head_lowerWord {c : Char} (rest : List Char) (hc : isAlphanumeric c = true) :
    ∃ d tail, lowerWord (c :: rest) = d :: tail ∧ isNameStart d = isNameStart c := by
  by_cases hsigma : c :: rest = ['Σ']
  · rw [List.cons_eq_cons] at hsigma
    obtain ⟨rfl, rfl⟩ := hsigma
    exact ⟨'ς', [], rfl, by decide⟩
  · obtain ⟨d, tail, hform, hstart⟩ := exists_head_lowerForm hc
    refine ⟨d, tail ++ lowerWord rest, ?_, hstart⟩
    rw [lowerWord, hform, List.cons_append]
    rintro rfl rfl
    exact hsigma rfl

end Identifier

/-! ### Words -/

/-- No hump of a word is empty. -/
theorem Text.cutHumps_ne_nil {hump : Hump} {word cs : List Char}
    (hword : hump = .upper → word ≠ []) {w : List Char} (h : w ∈ cutHumps hump word cs) :
    w ≠ [] := by
  fun_induction cutHumps hump word cs with
  | case1 => simp at h
  | case2 => simp_all
  | case3 hump word c next rest _ _ ih =>
      rcases List.mem_cons.mp h with rfl | h
      · simp
      · exact ih (by simp) h
  | case4 hump word c next rest _ _ hcut ih =>
      rcases List.mem_cons.mp h with rfl | h
      · simpa using hword hcut.1
      · exact ih (by simp) h
  | case5 hump word c next rest _ _ _ ih => exact ih (by simp) h

/-- No word of a name is empty. -/
theorem Naming.ne_nil_of_mem_nameWords {name : String} {w : List Char}
    (h : w ∈ nameWords name) : w ≠ [] := by
  rw [nameWords] at h
  split at h
  · rw [List.mem_singleton.mp h]
    decide
  · rw [Text.words, List.mem_flatMap] at h
    obtain ⟨part, -, hw⟩ := h
    exact Text.cutHumps_ne_nil (by simp) hw

/-! ### Ids -/

/-- The letters and numbers of an id may stand in an identifier, and the first of them may start
one. -/
structure SpellsName (id : String) : Prop where
  start : ∀ c, id.toList.find? isAlphanumeric = some c → Identifier.isNameStart c = true
  parts : ∀ c ∈ id.toList, isAlphanumeric c = true → Identifier.isNamePart c = true

/-- A name in camel case starts as its first letter or number does, or the word for none. -/
theorem exists_head_camelName (name : String) :
    ∃ d tail, (camelName name).toList = d :: tail ∧
      (Identifier.isNameStart d = true ↔
        ∀ c, name.toList.find? isAlphanumeric = some c → Identifier.isNameStart c = true) := by
  cases hwords : Naming.nameWords name with
  | nil =>
      rw [Naming.nameWords] at hwords
      split at hwords
      · simp at hwords
      · exact absurd hwords ‹_›
  | cons w ws =>
      have hw : w ≠ [] := Naming.ne_nil_of_mem_nameWords (hwords ▸ List.mem_cons_self)
      obtain ⟨c, rest, rfl⟩ := List.exists_cons_of_ne_nil hw
      have hflatten := Naming.flatten_nameWords name
      rw [hwords, List.flatten_cons, List.cons_append] at hflatten
      have hcamel : (camelName name).toList =
          Text.lowerWord (c :: rest) ++ ws.flatMap Text.capitalizeWord := by
        rw [camelName, hwords, Text.camel, String.toList_ofList]
      rcases hflatten with hletters | ⟨hunnamed, hnone⟩
      · have hfind : name.toList.find? isAlphanumeric = some c := by
          rw [← List.head?_filter, ← hletters, List.head?_cons]
        have hc : isAlphanumeric c = true := List.find?_some hfind
        obtain ⟨d, tail, hlower, hstart⟩ := Identifier.exists_head_lowerWord rest hc
        refine ⟨d, _, by rw [hcamel, hlower, List.cons_append], ?_⟩
        rw [hstart, hfind]
        simp
      · have hfind : name.toList.find? isAlphanumeric = none := by
          rw [← List.head?_filter, hnone, List.head?_nil]
        obtain rfl : c = 'u' := by simpa using congrArg List.head? hunnamed
        have hu : isAlphanumeric 'u' = true := rfl
        obtain ⟨d, tail, hlower, hstart⟩ := Identifier.exists_head_lowerWord rest hu
        refine ⟨d, _, by rw [hcamel, hlower, List.cons_append], ?_⟩
        rw [hstart, hfind]
        exact iff_of_true rfl (by simp)

namespace Identifier

/-- The camel-case name of an identifier is a name exactly if the identifier spells one. -/
theorem isName_camelName_iff {id : String} : IsName (camelName id) ↔ SpellsName id := by
  obtain ⟨d, tail, hcamel, hstart⟩ := exists_head_camelName id
  have hparts := (fits_camelName id).parts
  simp only [List.mem_filter, and_imp] at hparts
  constructor
  · rintro ⟨hd, hname⟩
    rw [hcamel] at hd
    exact ⟨hstart.mp hd, hparts.mp hname⟩
  · rintro ⟨hd, hid⟩
    exact ⟨by rw [hcamel]; exact hstart.mpr hd, hparts.mpr hid⟩

/-- Underscores at the end do not change whether a word is a name. -/
theorem isName_underscored_iff {word : String} (hword : word ≠ "") {n : ℕ} :
    IsName (underscored word n) ↔ IsName word := by
  have hhead : (underscored word n).toList.head? = word.toList.head? := by
    rw [toList_underscored, List.head?_append_of_ne_nil]
    exact fun h => hword (String.toList_eq_nil_iff.mp h)
  have hparts : (∀ c ∈ (underscored word n).toList, isNamePart c = true) ↔
      ∀ c ∈ word.toList, isNamePart c = true := by
    rw [toList_underscored, List.forall_mem_append]
    refine and_iff_left fun c hc => ?_
    rw [List.eq_of_mem_replicate hc]
    rfl
  exact ⟨fun h => ⟨hhead ▸ h.start, hparts.mp h.parts⟩,
    fun h => ⟨hhead ▸ h.start, hparts.mpr h.parts⟩⟩

/-- No reserved word ends in an underscore. -/
theorem underscored_mem_reserved_iff {word : String} {n : ℕ} :
    underscored word n ∈ reserved ↔ n = 0 ∧ word ∈ reserved := by
  constructor
  · intro h
    have hplain : ∀ w ∈ reserved, '_' ∉ w.toList := by decide
    have hn : n = 0 := by
      by_contra hn
      refine hplain _ h ?_
      rw [toList_underscored]
      exact List.mem_append_right _ (List.mem_replicate.mpr ⟨hn, rfl⟩)
    subst hn
    exact ⟨rfl, underscored_zero word ▸ h⟩
  · rintro ⟨rfl, h⟩
    exact (underscored_zero word).symm ▸ h

end Identifier

/-- A camel-case name is never empty. -/
theorem camelName_ne_empty (name : String) : camelName name ≠ "" := by
  obtain ⟨d, tail, hcamel, -⟩ := exists_head_camelName name
  intro h
  simp [h] at hcamel

/-! ### The index -/

/-- The first operation of an id has its name in camel case for a namespace. -/
theorem Index.camelName_mem_namespaces {api : Api} {options : OutputOptions} {o : OperationRecord}
    (ho : o ∈ api.operations.values) : camelName o.operationId ∈
      (ofApi api options (OperationModule.groups api options).1).namespaces.map Prod.fst := by
  rw [map_fst_namespaces, mem_numbered_iff fun word hword => ?_]
  · have hmem := List.mem_map_of_mem (f := fun o : OperationRecord => camelName o.operationId) ho
    exact ⟨_, hmem, 0, List.count_pos_iff.mpr hmem, underscored_zero _⟩
  · obtain ⟨o, -, rfl⟩ := List.mem_map.mp hword
    exact (Identifier.fits_camelName o.operationId).underscore_not_mem

/-- Every namespace is the name of an operation in camel case, with underscores after it. -/
theorem Index.exists_of_mem_namespaces {api : Api} {options : OutputOptions} {ns : String}
    (h : ns ∈ (ofApi api options (OperationModule.groups api options).1).namespaces.map Prod.fst) :
    ∃ o ∈ api.operations.values, ∃ n, ns = underscored (camelName o.operationId) n := by
  rw [map_fst_namespaces] at h
  obtain ⟨_, hword, n, rfl⟩ := exists_of_mem_numbered h
  obtain ⟨o, ho, rfl⟩ := List.mem_map.mp hword
  exact ⟨o, ho, n, rfl⟩

/-- **Namespaces as identifiers.** All namespaces of an index are names of identifier characters
exactly if every id spells one; none is a reserved word besides exactly if no id has a reserved word
for its name in camel case. -/
theorem Index.isName_namespaces_iff (api : Api) (options : OutputOptions) :
    let index := ofApi api options (OperationModule.groups api options).1
    ((∀ ns ∈ index.namespaces.map Prod.fst, Identifier.IsName ns) ↔
        ∀ o ∈ api.operations.values, SpellsName o.operationId) ∧
      ((∀ ns ∈ index.namespaces.map Prod.fst,
          Identifier.IsName ns ∧ ns ∉ Identifier.reserved) ↔
        ∀ o ∈ api.operations.values, SpellsName o.operationId ∧
          camelName o.operationId ∉ Identifier.reserved) := by
  intro index
  have hname : ∀ (o : OperationRecord) (n : ℕ),
      Identifier.IsName (underscored (camelName o.operationId) n) ↔ SpellsName o.operationId :=
    fun o n => (Identifier.isName_underscored_iff (camelName_ne_empty _)).trans
      Identifier.isName_camelName_iff
  refine ⟨⟨fun h o ho => ?_, fun h ns hns => ?_⟩, fun h o ho => ?_, fun h ns hns => ?_⟩
  · exact Identifier.isName_camelName_iff.mp (h _ (camelName_mem_namespaces ho))
  · obtain ⟨o, ho, n, rfl⟩ := exists_of_mem_namespaces hns
    exact (hname o n).mpr (h o ho)
  · obtain ⟨hns, hreserved⟩ := h _ (camelName_mem_namespaces ho)
    exact ⟨Identifier.isName_camelName_iff.mp hns, hreserved⟩
  · obtain ⟨o, ho, n, rfl⟩ := exists_of_mem_namespaces hns
    exact ⟨(hname o n).mpr (h o ho).1, fun hmem =>
      (h o ho).2 (Identifier.underscored_mem_reserved_iff.mp hmem).2⟩

/-- The operations `2fa`, `x²` and `delete` keep their ids as namespaces: the first begins with a
digit, the second has a number that may not stand in identifiers, the third is a reserved word. -/
theorem Index.namespaces_not_names :
    let api : Api := ⟨⟨"", ""⟩, .empty,
      .ofList [("2fa", ⟨"2fa", none, .get, "/2fa", none, .empty⟩),
        ("x²", ⟨"x²", none, .get, "/x", none, .empty⟩),
        ("delete", ⟨"delete", none, .delete, "/x", none, .empty⟩)]⟩
    let index := ofApi api .default (OperationModule.groups api .default).1
    index.namespaces.map Prod.fst = ["2fa", "x²", "delete"] ∧
      ¬ Identifier.IsName "2fa" ∧ ¬ Identifier.IsName "x²" ∧ "delete" ∈ Identifier.reserved := by
  have hstart : Identifier.isNameStart '2' = false := rfl
  have hpart : Identifier.isNamePart '²' = false := by decide
  refine ⟨by decide +kernel, fun h => ?_, fun h => ?_, by decide⟩
  · simpa [hstart] using h.start
  · simpa [hpart] using h.parts '²' (by simp)

end OpenApiZod

import Mathlib.Tactic.Common
import OpenApiZod.Identifier
import OpenApiZod.Route

/-!
# Letters in identifiers of any script

An identifier may hold letters, numbers and marks of any script. Not every letter or number is one
of them: superscripts, fractions and letters in circles are not (`strayRuns`). And the capital form
of a letter may have a mark that is no letter (`markRuns`).

A case mapping leaves letters and numbers what they are for an identifier: what it writes for them
may stand in an identifier exactly if they may (`fits_upperForm`, `fits_lowerForm`). So it is with
the words that names are made of (`fits_pascalName`, `fits_camelName`).
-/

namespace OpenApiZod

/-! ### Words of a text -/

namespace Text

/-- Cutting a word into humps loses nothing of it. -/
theorem flatten_cutHumps (hump : Hump) (word cs : List Char) (h : cs ≠ []) :
    (cutHumps hump word cs).flatten = word.reverse ++ cs := by
  fun_induction cutHumps hump word cs with
  | case1 => exact absurd rfl h
  | case2 hump word c => simp
  | case3 hump word c next rest _ _ ih => simp [ih (List.cons_ne_nil _ _)]
  | case4 hump word c next rest _ _ _ ih => simp [ih (List.cons_ne_nil _ _)]
  | case5 hump word c next rest _ _ _ ih => simp [ih (List.cons_ne_nil _ _)]

/-- The parts of a text, put together, are its letters and numbers. -/
theorem flatten_alphanumericParts (run cs : List Char) :
    (alphanumericParts run cs).flatten = run.reverse ++ cs.filter isAlphanumeric := by
  fun_induction alphanumericParts run cs with
  | case1 run h => simp [List.isEmpty_iff.mp h]
  | case2 run h => simp
  | case3 run c rest h ih => simp [ih, h]
  | case4 run c rest h hempty ih => simp [ih, h, List.isEmpty_iff.mp hempty]
  | case5 run c rest h hempty ih => simp [ih, h]

/-- No part of a text is empty. -/
theorem alphanumericParts_ne_nil {run cs part : List Char}
    (h : part ∈ alphanumericParts run cs) : part ≠ [] := by
  fun_induction alphanumericParts run cs with
  | case1 run _ => exact absurd h List.not_mem_nil
  | case2 run hrun =>
      rw [List.mem_singleton.mp h]
      simpa using hrun
  | case3 run c rest _ ih => exact ih h
  | case4 run c rest _ _ ih => exact ih h
  | case5 run c rest _ hrun ih =>
      rcases List.mem_cons.mp h with rfl | h
      · simpa using hrun
      · exact ih h

/-- The words of a text are its letters and numbers. -/
theorem flatten_words (s : String) : (words s).flatten = s.toList.filter isAlphanumeric := by
  have hcut : ∀ parts : List (List Char), (∀ part ∈ parts, part ≠ []) →
      (parts.flatMap (cutHumps .start [])).flatten = parts.flatten := by
    intro parts h
    induction parts with
    | nil => rfl
    | cons part parts ih =>
        rw [List.forall_mem_cons] at h
        rw [List.flatMap_cons, List.flatten_append, flatten_cutHumps _ _ _ h.1, ih h.2,
          List.flatten_cons]
        rfl
  rw [words, hcut _ fun part hpart => alphanumericParts_ne_nil hpart, flatten_alphanumericParts]
  rfl

end Text

/-- The letters and numbers of which the words of a name consist. -/
theorem Naming.flatten_nameWords (name : String) :
    (nameWords name).flatten = name.toList.filter Text.isAlphanumeric ∨
      (nameWords name).flatten = "unnamed".toList ∧
        name.toList.filter Text.isAlphanumeric = [] := by
  rw [← Text.flatten_words, nameWords]
  split
  · rename_i hwords
    rw [hwords]
    exact Or.inr ⟨rfl, rfl⟩
  · exact Or.inl rfl

namespace Identifier

open Text

/-! ### Parts of identifiers -/

/-- Letters and numbers above U+007F that may not stand in an identifier: the property `N` or
`Alphabetic` without `ID_Continue`. -/
def strayRuns : List Run :=
  [⟨0xB2, 0xB3, 1⟩, ⟨0xB9, 0xB9, 1⟩, ⟨0xBC, 0xBE, 1⟩, ⟨0x9F4, 0x9F9, 1⟩, ⟨0xB72, 0xB77, 1⟩,
   ⟨0xBF0, 0xBF2, 1⟩, ⟨0xC78, 0xC7E, 1⟩, ⟨0xD58, 0xD5E, 1⟩, ⟨0xD70, 0xD78, 1⟩, ⟨0xF2A, 0xF33, 1⟩,
   ⟨0x1372, 0x137C, 1⟩, ⟨0x17F0, 0x17F9, 1⟩, ⟨0x2070, 0x2070, 1⟩, ⟨0x2074, 0x2079, 1⟩,
   ⟨0x2080, 0x2089, 1⟩, ⟨0x2150, 0x215F, 1⟩, ⟨0x2189, 0x2189, 1⟩, ⟨0x2460, 0x249B, 1⟩,
   ⟨0x24B6, 0x24FF, 1⟩, ⟨0x2776, 0x2793, 1⟩, ⟨0x2CFD, 0x2CFD, 1⟩, ⟨0x2E2F, 0x2E2F, 1⟩,
   ⟨0x3192, 0x3195, 1⟩, ⟨0x3220, 0x3229, 1⟩, ⟨0x3248, 0x324F, 1⟩, ⟨0x3251, 0x325F, 1⟩,
   ⟨0x3280, 0x3289, 1⟩, ⟨0x32B1, 0x32BF, 1⟩, ⟨0xA830, 0xA835, 1⟩, ⟨0x10107, 0x10133, 1⟩,
   ⟨0x10175, 0x10178, 1⟩, ⟨0x1018A, 0x1018B, 1⟩, ⟨0x102E1, 0x102FB, 1⟩, ⟨0x10320, 0x10323, 1⟩,
   ⟨0x10858, 0x1085F, 1⟩, ⟨0x10879, 0x1087F, 1⟩, ⟨0x108A7, 0x108AF, 1⟩, ⟨0x108FB, 0x108FF, 1⟩,
   ⟨0x10916, 0x1091B, 1⟩, ⟨0x109BC, 0x109BD, 1⟩, ⟨0x109C0, 0x109CF, 1⟩, ⟨0x109D2, 0x109FF, 1⟩,
   ⟨0x10A40, 0x10A48, 1⟩, ⟨0x10A7D, 0x10A7E, 1⟩, ⟨0x10A9D, 0x10A9F, 1⟩, ⟨0x10AEB, 0x10AEF, 1⟩,
   ⟨0x10B58, 0x10B5F, 1⟩, ⟨0x10B78, 0x10B7F, 1⟩, ⟨0x10BA9, 0x10BAF, 1⟩, ⟨0x10CFA, 0x10CFF, 1⟩,
   ⟨0x10E60, 0x10E7E, 1⟩, ⟨0x10F1D, 0x10F26, 1⟩, ⟨0x10F51, 0x10F54, 1⟩, ⟨0x10FC5, 0x10FCB, 1⟩,
   ⟨0x11052, 0x11065, 1⟩, ⟨0x111E1, 0x111F4, 1⟩, ⟨0x1173A, 0x1173B, 1⟩, ⟨0x118EA, 0x118F2, 1⟩,
   ⟨0x11C5A, 0x11C6C, 1⟩, ⟨0x11FC0, 0x11FD4, 1⟩, ⟨0x16B5B, 0x16B61, 1⟩, ⟨0x16E80, 0x16E96, 1⟩,
   ⟨0x1D2C0, 0x1D2D3, 1⟩, ⟨0x1D2E0, 0x1D2F3, 1⟩, ⟨0x1D360, 0x1D378, 1⟩, ⟨0x1E8C7, 0x1E8CF, 1⟩,
   ⟨0x1EC71, 0x1ECAB, 1⟩, ⟨0x1ECAD, 0x1ECAF, 1⟩, ⟨0x1ECB1, 0x1ECB4, 1⟩, ⟨0x1ED01, 0x1ED2D, 1⟩,
   ⟨0x1ED2F, 0x1ED3D, 1⟩, ⟨0x1F100, 0x1F10C, 1⟩, ⟨0x1F130, 0x1F149, 1⟩, ⟨0x1F150, 0x1F169, 1⟩,
   ⟨0x1F170, 0x1F189, 1⟩]

/-- Characters above U+007F that may stand in an identifier and are neither letters nor numbers: the
rest of `ID_Continue`, and the two joiners. -/
def markRuns : List Run :=
  [⟨0xB7, 0xB7, 1⟩, ⟨0x300, 0x344, 1⟩, ⟨0x346, 0x362, 1⟩, ⟨0x387, 0x387, 1⟩, ⟨0x483, 0x487, 1⟩,
   ⟨0x591, 0x5AF, 1⟩, ⟨0x658, 0x658, 1⟩, ⟨0x6DF, 0x6E0, 1⟩, ⟨0x6EA, 0x6EC, 1⟩, ⟨0x740, 0x74A, 1⟩,
   ⟨0x7EB, 0x7F3, 1⟩, ⟨0x7FD, 0x7FD, 1⟩, ⟨0x818, 0x819, 1⟩, ⟨0x82D, 0x82D, 1⟩, ⟨0x859, 0x85B, 1⟩,
   ⟨0x898, 0x89F, 1⟩, ⟨0x8CA, 0x8D3, 1⟩, ⟨0x8E0, 0x8E1, 1⟩, ⟨0x8EA, 0x8EF, 1⟩, ⟨0x93C, 0x93C, 1⟩,
   ⟨0x94D, 0x94D, 1⟩, ⟨0x951, 0x954, 1⟩, ⟨0x9BC, 0x9BC, 1⟩, ⟨0x9CD, 0x9CD, 1⟩, ⟨0x9FE, 0x9FE, 1⟩,
   ⟨0xA3C, 0xA3C, 1⟩, ⟨0xA4D, 0xA4D, 1⟩, ⟨0xABC, 0xABC, 1⟩, ⟨0xACD, 0xACD, 1⟩, ⟨0xAFD, 0xAFF, 1⟩,
   ⟨0xB3C, 0xB3C, 1⟩, ⟨0xB4D, 0xB4D, 1⟩, ⟨0xB55, 0xB55, 1⟩, ⟨0xBCD, 0xBCD, 1⟩, ⟨0xC3C, 0xC3C, 1⟩,
   ⟨0xC4D, 0xC4D, 1⟩, ⟨0xCBC, 0xCBC, 1⟩, ⟨0xCCD, 0xCCD, 1⟩, ⟨0xD3B, 0xD3C, 1⟩, ⟨0xD4D, 0xD4D, 1⟩,
   ⟨0xDCA, 0xDCA, 1⟩, ⟨0xE47, 0xE4C, 1⟩, ⟨0xE4E, 0xE4E, 1⟩, ⟨0xEBA, 0xEBA, 1⟩, ⟨0xEC8, 0xECC, 1⟩,
   ⟨0xECE, 0xECE, 1⟩, ⟨0xF18, 0xF19, 1⟩, ⟨0xF35, 0xF35, 1⟩, ⟨0xF37, 0xF37, 1⟩, ⟨0xF39, 0xF39, 1⟩,
   ⟨0xF3E, 0xF3F, 1⟩, ⟨0xF84, 0xF84, 1⟩, ⟨0xF86, 0xF87, 1⟩, ⟨0xFC6, 0xFC6, 1⟩, ⟨0x1037, 0x1037, 1⟩,
   ⟨0x1039, 0x103A, 1⟩, ⟨0x135D, 0x135F, 1⟩, ⟨0x1714, 0x1715, 1⟩, ⟨0x1734, 0x1734, 1⟩,
   ⟨0x17B4, 0x17B5, 1⟩, ⟨0x17C9, 0x17D3, 1⟩, ⟨0x17DD, 0x17DD, 1⟩, ⟨0x180B, 0x180D, 1⟩,
   ⟨0x180F, 0x180F, 1⟩, ⟨0x1939, 0x193B, 1⟩, ⟨0x1A60, 0x1A60, 1⟩, ⟨0x1A75, 0x1A7C, 1⟩,
   ⟨0x1A7F, 0x1A7F, 1⟩, ⟨0x1AB0, 0x1ABD, 1⟩, ⟨0x1AC1, 0x1ACB, 1⟩, ⟨0x1ACF, 0x1ADD, 1⟩,
   ⟨0x1AE0, 0x1AEB, 1⟩, ⟨0x1B34, 0x1B34, 1⟩, ⟨0x1B44, 0x1B44, 1⟩, ⟨0x1B6B, 0x1B73, 1⟩,
   ⟨0x1BAA, 0x1BAB, 1⟩, ⟨0x1BE6, 0x1BE6, 1⟩, ⟨0x1BF2, 0x1BF3, 1⟩, ⟨0x1C37, 0x1C37, 1⟩,
   ⟨0x1CD0, 0x1CD2, 1⟩, ⟨0x1CD4, 0x1CE8, 1⟩, ⟨0x1CED, 0x1CED, 1⟩, ⟨0x1CF4, 0x1CF4, 1⟩,
   ⟨0x1CF7, 0x1CF9, 1⟩, ⟨0x1DC0, 0x1DD2, 1⟩, ⟨0x1DF5, 0x1DFF, 1⟩, ⟨0x200C, 0x200D, 1⟩,
   ⟨0x203F, 0x2040, 1⟩, ⟨0x2054, 0x2054, 1⟩, ⟨0x20D0, 0x20DC, 1⟩, ⟨0x20E1, 0x20E1, 1⟩,
   ⟨0x20E5, 0x20F0, 1⟩, ⟨0x2118, 0x2118, 1⟩, ⟨0x212E, 0x212E, 1⟩, ⟨0x2CEF, 0x2CF1, 1⟩,
   ⟨0x2D7F, 0x2D7F, 1⟩, ⟨0x302A, 0x302F, 1⟩, ⟨0x3099, 0x309C, 1⟩, ⟨0x30FB, 0x30FB, 1⟩,
   ⟨0xA66F, 0xA66F, 1⟩, ⟨0xA67C, 0xA67D, 1⟩, ⟨0xA6F0, 0xA6F1, 1⟩, ⟨0xA806, 0xA806, 1⟩,
   ⟨0xA82C, 0xA82C, 1⟩, ⟨0xA8C4, 0xA8C4, 1⟩, ⟨0xA8E0, 0xA8F1, 1⟩, ⟨0xA92B, 0xA92D, 1⟩,
   ⟨0xA953, 0xA953, 1⟩, ⟨0xA9B3, 0xA9B3, 1⟩, ⟨0xA9C0, 0xA9C0, 1⟩, ⟨0xAABF, 0xAABF, 1⟩,
   ⟨0xAAC1, 0xAAC1, 1⟩, ⟨0xAAF6, 0xAAF6, 1⟩, ⟨0xABEC, 0xABED, 1⟩, ⟨0xFE00, 0xFE0F, 1⟩,
   ⟨0xFE20, 0xFE2F, 1⟩, ⟨0xFE33, 0xFE34, 1⟩, ⟨0xFE4D, 0xFE4F, 1⟩, ⟨0xFF3F, 0xFF3F, 1⟩,
   ⟨0xFF65, 0xFF65, 1⟩, ⟨0x101FD, 0x101FD, 1⟩, ⟨0x102E0, 0x102E0, 1⟩, ⟨0x10A38, 0x10A3A, 1⟩,
   ⟨0x10A3F, 0x10A3F, 1⟩, ⟨0x10AE5, 0x10AE6, 1⟩, ⟨0x10D6A, 0x10D6D, 1⟩, ⟨0x10EFD, 0x10EFF, 1⟩,
   ⟨0x10F46, 0x10F50, 1⟩, ⟨0x10F82, 0x10F85, 1⟩, ⟨0x11046, 0x11046, 1⟩, ⟨0x11070, 0x11070, 1⟩,
   ⟨0x1107F, 0x1107F, 1⟩, ⟨0x110B9, 0x110BA, 1⟩, ⟨0x11133, 0x11134, 1⟩, ⟨0x11173, 0x11173, 1⟩,
   ⟨0x111C0, 0x111C0, 1⟩, ⟨0x111C9, 0x111CC, 1⟩, ⟨0x11235, 0x11236, 1⟩, ⟨0x112E9, 0x112EA, 1⟩,
   ⟨0x1133B, 0x1133C, 1⟩, ⟨0x1134D, 0x1134D, 1⟩, ⟨0x11366, 0x1136C, 1⟩, ⟨0x11370, 0x11374, 1⟩,
   ⟨0x113CE, 0x113D0, 1⟩, ⟨0x113D2, 0x113D2, 1⟩, ⟨0x113E1, 0x113E2, 1⟩, ⟨0x11442, 0x11442, 1⟩,
   ⟨0x11446, 0x11446, 1⟩, ⟨0x1145E, 0x1145E, 1⟩, ⟨0x114C2, 0x114C3, 1⟩, ⟨0x115BF, 0x115C0, 1⟩,
   ⟨0x1163F, 0x1163F, 1⟩, ⟨0x116B6, 0x116B7, 1⟩, ⟨0x1172B, 0x1172B, 1⟩, ⟨0x11839, 0x1183A, 1⟩,
   ⟨0x1193D, 0x1193E, 1⟩, ⟨0x11943, 0x11943, 1⟩, ⟨0x119E0, 0x119E0, 1⟩, ⟨0x11A33, 0x11A34, 1⟩,
   ⟨0x11A47, 0x11A47, 1⟩, ⟨0x11A98, 0x11A99, 1⟩, ⟨0x11C3F, 0x11C3F, 1⟩, ⟨0x11D42, 0x11D42, 1⟩,
   ⟨0x11D44, 0x11D45, 1⟩, ⟨0x11D97, 0x11D97, 1⟩, ⟨0x11F41, 0x11F42, 1⟩, ⟨0x11F5A, 0x11F5A, 1⟩,
   ⟨0x13440, 0x13440, 1⟩, ⟨0x13447, 0x13455, 1⟩, ⟨0x1612F, 0x1612F, 1⟩, ⟨0x16AF0, 0x16AF4, 1⟩,
   ⟨0x16B30, 0x16B36, 1⟩, ⟨0x16FE4, 0x16FE4, 1⟩, ⟨0x1BC9D, 0x1BC9D, 1⟩, ⟨0x1CF00, 0x1CF2D, 1⟩,
   ⟨0x1CF30, 0x1CF46, 1⟩, ⟨0x1D165, 0x1D169, 1⟩, ⟨0x1D16D, 0x1D172, 1⟩, ⟨0x1D17B, 0x1D182, 1⟩,
   ⟨0x1D185, 0x1D18B, 1⟩, ⟨0x1D1AA, 0x1D1AD, 1⟩, ⟨0x1D242, 0x1D244, 1⟩, ⟨0x1DA00, 0x1DA36, 1⟩,
   ⟨0x1DA3B, 0x1DA6C, 1⟩, ⟨0x1DA75, 0x1DA75, 1⟩, ⟨0x1DA84, 0x1DA84, 1⟩, ⟨0x1DA9B, 0x1DA9F, 1⟩,
   ⟨0x1DAA1, 0x1DAAF, 1⟩, ⟨0x1E130, 0x1E136, 1⟩, ⟨0x1E2AE, 0x1E2AE, 1⟩, ⟨0x1E2EC, 0x1E2EF, 1⟩,
   ⟨0x1E4EC, 0x1E4EF, 1⟩, ⟨0x1E5EE, 0x1E5EF, 1⟩, ⟨0x1E8D0, 0x1E8D6, 1⟩, ⟨0x1E944, 0x1E946, 1⟩,
   ⟨0x1E948, 0x1E94A, 1⟩, ⟨0xE0100, 0xE01EF, 1⟩]

/-- A letter or number that may not stand in an identifier. -/
def isStray (c : Char) : Bool := strayRuns.any (·.covers c.toNat)

/-- A character of an identifier that is neither a letter nor a number. -/
def isMark (c : Char) : Bool := markRuns.any (·.covers c.toNat)

/-- A character that may stand anywhere but first in an identifier. -/
def isNamePart (c : Char) : Bool :=
  if c.toNat < 0x80 then isPart c else if isAlphanumeric c then !isStray c else isMark c

/-- `form` is written for the letters and numbers `cs`: it holds nothing else but marks, and may
stand in an identifier exactly if they may. -/
structure Fits (cs form : List Char) : Prop where
  letters : ∀ d ∈ form, isAlphanumeric d = true ∨ isMark d = true
  parts : (∀ d ∈ form, isNamePart d = true) ↔ ∀ c ∈ cs, isNamePart c = true

/-- Nothing fits nothing. -/
theorem Fits.nil : Fits [] [] := ⟨by simp, by simp⟩

/-- What is written for two runs, one after the other, fits both together. -/
theorem Fits.append {cs cs' form form' : List Char} (h : Fits cs form) (h' : Fits cs' form') :
    Fits (cs ++ cs') (form ++ form') where
  letters := List.forall_mem_append.mpr ⟨h.letters, h'.letters⟩
  parts := by rw [List.forall_mem_append, List.forall_mem_append, h.parts, h'.parts]

/-- A letter or number fits a character if both may stand in an identifier, or neither. -/
theorem Fits.singleton {c d : Char} (h : isAlphanumeric d = true)
    (hpart : isNamePart d = isNamePart c) : Fits [c] [d] where
  letters := List.forall_mem_singleton.mpr (Or.inl h)
  parts := by rw [List.forall_mem_singleton, List.forall_mem_singleton, hpart]

/-! ### Ranges of letters -/

-- The comparisons are those that the kernel computes at once: the tables are long.

/-- The run covers all from `low` to `high`. -/
def spans (low high : Nat) (r : Run) : Bool :=
  Nat.ble r.first low && Nat.ble high r.last && Nat.beq r.step 1

/-- The run covers nothing from `low` to `high`. -/
def avoids (low high : Nat) (r : Run) : Bool :=
  Nat.blt high r.first || Nat.blt r.last low

/-- All from `low` to `high` are characters above U+007F. -/
def charactersBetween (low high : Nat) : Bool :=
  Nat.ble 0x80 low && (Nat.blt high 0xD800 || Nat.blt 0xDFFF low && Nat.blt high 0x110000)

/-- All from `low` to `high` are letters or numbers. -/
def lettersBetween (low high : Nat) : Bool :=
  (Nat.ble 0x41 low && Nat.ble high 0x5A) || (Nat.ble 0x61 low && Nat.ble high 0x7A) ||
    charactersBetween low high && alphanumericRuns.any (spans low high)

/-- All from `low` to `high` are stray. -/
def strayBetween (low high : Nat) : Bool := strayRuns.any (spans low high)

/-- None from `low` to `high` is stray. -/
def cleanBetween (low high : Nat) : Bool := strayRuns.all (avoids low high)

section Between

variable {low high n : Nat}

/-- A run that spans a range covers all code points in it. -/
theorem covers_of_between {r : Run} (hlow : low ≤ n) (hhigh : n ≤ high)
    (h : spans low high r = true) : r.covers n = true := by
  simp only [spans, Bool.and_eq_true, Nat.ble_eq, Nat.beq_eq] at h
  obtain ⟨⟨hfirst, hlast⟩, hstep⟩ := h
  simp only [Run.covers, hstep, Nat.mod_one, BEq.rfl, Bool.and_true, Bool.and_eq_true,
    decide_eq_true_eq]
  omega

/-- The character of a valid code point has that code point. -/
theorem toNat_ofNat_of_isValidChar (h : n.isValidChar) : (Char.ofNat n).toNat = n := by
  rw [Char.ofNat, dif_pos h]
  rfl

/-- Every code point of a range of characters is a valid one above U+007F. -/
theorem isValidChar_of_characters (h : charactersBetween low high = true) (hlow : low ≤ n)
    (hhigh : n ≤ high) : 0x80 ≤ n ∧ n.isValidChar := by
  simp only [charactersBetween, Bool.and_eq_true, Bool.or_eq_true, Nat.ble_eq, Nat.blt_eq] at h
  rw [Nat.isValidChar]
  omega

/-- The character of a code point between letters has that code point. -/
theorem toNat_ofNat_of_between (h : lettersBetween low high = true) (hlow : low ≤ n)
    (hhigh : n ≤ high) : (Char.ofNat n).toNat = n := by
  simp only [lettersBetween, Bool.or_eq_true, Bool.and_eq_true, Nat.ble_eq] at h
  refine toNat_ofNat_of_isValidChar ?_
  rcases h with h | ⟨h, -⟩
  · rw [Nat.isValidChar]
    omega
  · exact (isValidChar_of_characters h hlow hhigh).2

/-- The ASCII letters are letters. -/
theorem isAlphanum_of_ascii : ∀ n < 0x80, (0x41 ≤ n ∧ n ≤ 0x5A ∨ 0x61 ≤ n ∧ n ≤ 0x7A) →
    (Char.ofNat n).isAlphanum = true := by
  decide

/-- Every character of a range of letters is a letter or number. -/
theorem isAlphanumeric_of_between (h : lettersBetween low high = true) (hlow : low ≤ n)
    (hhigh : n ≤ high) : isAlphanumeric (Char.ofNat n) = true := by
  have htoNat := toNat_ofNat_of_between h hlow hhigh
  simp only [lettersBetween, Bool.or_eq_true, Bool.and_eq_true, Nat.ble_eq] at h
  rcases h with hascii | ⟨h, hruns⟩
  · exact isAlphanumeric_of_isAlphanum (isAlphanum_of_ascii n (by omega) (by omega))
  · obtain ⟨r, hr, hspans⟩ := List.any_eq_true.mp hruns
    have habove := (isValidChar_of_characters h hlow hhigh).1
    rw [isAlphanumeric, htoNat, if_neg (by omega)]
    exact List.any_eq_true.mpr ⟨r, hr, covers_of_between hlow hhigh hspans⟩

/-- Every character of a stray range is stray. -/
theorem isStray_of_between (h : strayBetween low high = true) {c : Char} (hlow : low ≤ c.toNat)
    (hhigh : c.toNat ≤ high) : isStray c = true := by
  obtain ⟨r, hr, hcovers⟩ := List.any_eq_true.mp h
  exact List.any_eq_true.mpr ⟨r, hr, covers_of_between hlow hhigh hcovers⟩

/-- Runs that avoid a range cover no code point of it. -/
theorem not_covers_of_avoids {runs : List Run} (h : runs.all (avoids low high) = true)
    (hlow : low ≤ n) (hhigh : n ≤ high) : runs.any (·.covers n) = false := by
  rw [List.any_eq_false]
  intro r hr
  have hapart := List.all_eq_true.mp h r hr
  simp only [avoids, Bool.or_eq_true, Nat.blt_eq] at hapart
  simp only [Run.covers, Bool.and_eq_true, decide_eq_true_eq, not_and]
  omega

/-- No character of a clean range is stray. -/
theorem not_isStray_of_between (h : cleanBetween low high = true) {c : Char}
    (hlow : low ≤ c.toNat) (hhigh : c.toNat ≤ high) : isStray c = false :=
  not_covers_of_avoids h hlow hhigh

/-- Stray letters and numbers are above U+007F. -/
theorem isNamePart_of_isAlphanumeric {c : Char} (h : isAlphanumeric c = true) :
    isNamePart c = !isStray c := by
  rw [isNamePart]
  split
  · rename_i hascii
    have hascii' : cleanBetween 0 0x7F = true := rfl
    have hclean : isStray c = false :=
      not_isStray_of_between hascii' (Nat.zero_le _) (by omega)
    have hpart : isPart c = true := by
      rw [isAlphanumeric, if_pos hascii] at h
      simp [isPart, h]
    rw [hclean, hpart]
    rfl
  · rfl

end Between

/-! ### Case mappings -/

/-- The shift moves all between its ends to letters and numbers, stray ones to stray ones and others
to others. -/
def rangeFits (s : Shift) : Bool :=
  let low := (s.first + s.distance).toNat
  let high := (s.last + s.distance).toNat
  0 ≤ s.first + s.distance && lettersBetween low high &&
    (cleanBetween s.first s.last && cleanBetween low high ||
      strayBetween s.first s.last && strayBetween low high)

/-- What the shift does to one code point. -/
def shiftAt (s : Shift) (n : Nat) : Shift := ⟨n, n, 1, s.distance⟩

/-- The shift moves letters and numbers to such of the same kind. -/
def shiftFits (s : Shift) : Bool :=
  rangeFits s || (List.range (s.last - s.first + 1)).all fun i =>
    (s.image? (s.first + i)).isNone || rangeFits (shiftAt s (s.first + i))

/-- The code point is that of a letter, number or mark that is not stray. -/
def codeFits (n : Nat) : Bool :=
  cleanBetween n n && (lettersBetween n n || charactersBetween n n && markRuns.any (spans n n))

/-- The expansion of a code point that is not stray gives letters, numbers and marks. -/
def expansionFits (e : Nat × List Nat) : Bool :=
  cleanBetween e.1 e.1 && e.2.all codeFits

/-- What a shift with a range that fits gives is a letter or number. -/
theorem letter_of_rangeFits {s : Shift} (h : rangeFits s = true) {m n : Nat}
    (hn : s.image? m = some n) :
    (Char.ofNat n).toNat = n ∧ isAlphanumeric (Char.ofNat n) = true := by
  simp only [Shift.image?, Option.ite_none_right_eq_some, Bool.and_eq_true, decide_eq_true_eq,
    Option.some.injEq] at hn
  obtain ⟨⟨⟨hfirst, hlast⟩, -⟩, rfl⟩ := hn
  simp only [rangeFits, Bool.and_eq_true, decide_eq_true_eq] at h
  obtain ⟨⟨hpositive, hletters⟩, -⟩ := h
  have hlow : (s.first + s.distance).toNat ≤ (m + s.distance).toNat := by omega
  have hhigh : (m + s.distance).toNat ≤ (s.last + s.distance).toNat := by omega
  exact ⟨toNat_ofNat_of_between hletters hlow hhigh, isAlphanumeric_of_between hletters hlow hhigh⟩

/-- What a shift whose range fits gives for a letter or number fits it. -/
theorem fits_of_range {s : Shift} (h : rangeFits s = true) {c : Char}
    (hc : isAlphanumeric c = true) {n : Nat} (hn : s.image? c.toNat = some n) :
    Fits [c] [Char.ofNat n] := by
  obtain ⟨htoNat, himage⟩ := letter_of_rangeFits h hn
  simp only [Shift.image?, Option.ite_none_right_eq_some, Bool.and_eq_true, decide_eq_true_eq,
    Option.some.injEq] at hn
  obtain ⟨⟨⟨hfirst, hlast⟩, -⟩, rfl⟩ := hn
  simp only [rangeFits, Bool.and_eq_true, Bool.or_eq_true, decide_eq_true_eq] at h
  obtain ⟨⟨hpositive, -⟩, hstray⟩ := h
  have hlow : (s.first + s.distance).toNat ≤ (Char.ofNat (c.toNat + s.distance).toNat).toNat := by
    omega
  have hhigh : (Char.ofNat (c.toNat + s.distance).toNat).toNat ≤ (s.last + s.distance).toNat := by
    omega
  refine Fits.singleton himage ?_
  rw [isNamePart_of_isAlphanumeric himage, isNamePart_of_isAlphanumeric hc]
  congr 1
  rcases hstray with ⟨hdomain, hcodomain⟩ | ⟨hdomain, hcodomain⟩
  · rw [not_isStray_of_between hdomain hfirst hlast, not_isStray_of_between hcodomain hlow hhigh]
  · rw [isStray_of_between hdomain hfirst hlast, isStray_of_between hcodomain hlow hhigh]

/-- A shift that fits moves each of its code points as one does whose range fits. -/
theorem exists_rangeFits {s : Shift} (h : shiftFits s = true) {m n : Nat}
    (hn : s.image? m = some n) : ∃ r : Shift, rangeFits r = true ∧ r.image? m = some n := by
  rcases Bool.or_eq_true_iff.mp h with hrange | hpoints
  · exact ⟨s, hrange, hn⟩
  -- Where the step is two, the images need not lie in one run: each is looked up for itself.
  · have himage := hn
    simp only [Shift.image?, Option.ite_none_right_eq_some, Bool.and_eq_true, decide_eq_true_eq,
      Option.some.injEq] at himage
    obtain ⟨⟨⟨hfirst, hlast⟩, -⟩, rfl⟩ := himage
    have hpoint := List.all_eq_true.mp hpoints (m - s.first) (List.mem_range.mpr (by omega))
    rw [Nat.add_sub_cancel' hfirst, hn, Option.isNone_some, Bool.false_or] at hpoint
    exact ⟨shiftAt s m, hpoint, by simp [shiftAt, Shift.image?]⟩

/-- So does what a shift that fits gives, be it checked as a range or point by point. -/
theorem fits_of_shift {s : Shift} (h : shiftFits s = true) {c : Char}
    (hc : isAlphanumeric c = true) {n : Nat} (hn : s.image? c.toNat = some n) :
    Fits [c] [Char.ofNat n] := by
  obtain ⟨r, hr, himage⟩ := exists_rangeFits h hn
  exact fits_of_range hr hc himage

/-- The character of a code point that fits is a letter, number or mark, and may stand in an
identifier. -/
theorem letter_of_codeFits {n : Nat} (h : codeFits n = true) :
    (isAlphanumeric (Char.ofNat n) = true ∨ isMark (Char.ofNat n) = true) ∧
      isNamePart (Char.ofNat n) = true := by
  simp only [codeFits, Bool.and_eq_true, Bool.or_eq_true] at h
  obtain ⟨hclean, hcharacter⟩ := h
  have hstray : (Char.ofNat n).toNat = n → isStray (Char.ofNat n) = false := fun htoNat =>
    not_isStray_of_between hclean (Nat.le_of_eq htoNat.symm) (Nat.le_of_eq htoNat)
  rcases hcharacter with hletter | ⟨hvalid, hmark⟩
  · have htoNat := toNat_ofNat_of_between hletter (Nat.le_refl _) (Nat.le_refl _)
    have halphanumeric := isAlphanumeric_of_between hletter (Nat.le_refl _) (Nat.le_refl _)
    refine ⟨Or.inl halphanumeric, ?_⟩
    rw [isNamePart_of_isAlphanumeric halphanumeric, hstray htoNat]
    rfl
  · obtain ⟨habove, hvalid⟩ := isValidChar_of_characters hvalid (Nat.le_refl _) (Nat.le_refl _)
    have htoNat := toNat_ofNat_of_isValidChar hvalid
    have hmark : isMark (Char.ofNat n) = true := by
      obtain ⟨r, hr, hspans⟩ := List.any_eq_true.mp hmark
      rw [isMark, htoNat]
      exact List.any_eq_true.mpr ⟨r, hr, covers_of_between (Nat.le_refl _) (Nat.le_refl _) hspans⟩
    refine ⟨Or.inr hmark, ?_⟩
    rw [isNamePart, if_neg (by omega), hstray htoNat, hmark]
    exact ite_self _

/-- An expansion that fits gives what fits the character it expands. -/
theorem fits_of_expansion {c : Char} {codes : List Nat} (h : expansionFits (c.toNat, codes) = true)
    (hc : isAlphanumeric c = true) : Fits [c] (codes.map Char.ofNat) := by
  simp only [expansionFits, Bool.and_eq_true, List.all_eq_true] at h
  have hpart : isNamePart c = true := by
    rw [isNamePart_of_isAlphanumeric hc,
      not_isStray_of_between h.1 (Nat.le_refl _) (Nat.le_refl _)]
    rfl
  have hcodes := fun n hn => letter_of_codeFits (h.2 n hn)
  refine ⟨List.forall_mem_map.mpr fun n hn => (hcodes n hn).1, iff_of_true ?_ ?_⟩
  · exact List.forall_mem_map.mpr fun n hn => (hcodes n hn).2
  · exact List.forall_mem_singleton.mpr hpart

/-- What is looked up stands in the list. -/
theorem mem_of_lookup_eq_some {α : Type} {key : Nat} {value : α} {entries : List (Nat × α)}
    (h : entries.lookup key = some value) : (key, value) ∈ entries := by
  obtain ⟨front, back, rfl, -⟩ := List.lookup_eq_some_iff.mp h
  simp

/-- A case mapping whose expansions and shifts all fit gives what fits each letter or number. -/
theorem fits_mapCase {expansions : List (Nat × List Nat)} {shifts : List Shift}
    (hexpansions : expansions.all expansionFits = true) (hshifts : shifts.all shiftFits = true)
    {c : Char} (hc : isAlphanumeric c = true) : Fits [c] (mapCase expansions shifts c) := by
  rw [mapCase]
  split
  · rename_i codes hcodes
    exact fits_of_expansion
      (List.all_eq_true.mp hexpansions _ (mem_of_lookup_eq_some hcodes)) hc
  · cases hshift : shifts.findSome? (·.image? c.toNat) with
    | none => exact Fits.singleton hc rfl
    | some n =>
        obtain ⟨s, hs, hn⟩ := List.exists_of_findSome?_eq_some hshift
        exact fits_of_shift (List.all_eq_true.mp hshifts s hs) hc hn

/-- All shifts to upper case fit. -/
theorem shiftFits_upperShifts : upperShifts.all shiftFits = true := by decide +kernel

/-- All shifts to lower case fit. -/
theorem shiftFits_lowerShifts : lowerShifts.all shiftFits = true := by decide +kernel

/-- All expansions to upper case fit. -/
theorem expansionFits_upperExpansions : upperExpansions.all expansionFits = true := by
  decide +kernel

/-- All expansions to lower case fit. -/
theorem expansionFits_lowerExpansions : lowerExpansions.all expansionFits = true := by
  decide +kernel

/-- In ASCII, the cases of letters and digits are letters and digits. -/
theorem ascii_cases : (List.range 0x80).all fun n => let c := Char.ofNat n
    !c.isAlphanum || [c, c.toUpper, c.toLower].all fun d => isAlphanumeric d && isNamePart d := by
  decide

/-- In ASCII, each case of a letter or digit fits it. -/
theorem fits_ascii {c d : Char} (hascii : c.toNat < 0x80) (hc : isAlphanumeric c = true)
    (hd : d ∈ [c, c.toUpper, c.toLower]) : Fits [c] [d] := by
  rw [isAlphanumeric, if_pos hascii] at hc
  have h := List.all_eq_true.mp ascii_cases _ (List.mem_range.mpr hascii)
  simp only [Char.ofNat_toNat, hc, Bool.not_true, Bool.false_or, List.all_eq_true,
    Bool.and_eq_true] at h
  have hpart := (h c List.mem_cons_self).2
  exact Fits.singleton (h d hd).1 ((h d hd).2.trans hpart.symm)

/-- The upper case of a letter or number fits it. -/
theorem fits_upperForm {c : Char} (hc : isAlphanumeric c = true) : Fits [c] (upperForm c) := by
  rw [upperForm]
  split
  · exact fits_ascii ‹_› hc (by simp)
  · exact fits_mapCase expansionFits_upperExpansions shiftFits_upperShifts hc

/-- The lower case of a letter or number fits it. -/
theorem fits_lowerForm {c : Char} (hc : isAlphanumeric c = true) : Fits [c] (lowerForm c) := by
  rw [lowerForm]
  split
  · exact fits_ascii ‹_› hc (by simp)
  · exact fits_mapCase expansionFits_lowerExpansions shiftFits_lowerShifts hc

/-! ### Names -/

/-- The lower case of a word fits the word. -/
theorem fits_lowerWord (w : List Char) (h : ∀ c ∈ w, isAlphanumeric c = true) :
    Fits w (lowerWord w) := by
  fun_induction lowerWord w with
  | case1 => exact Fits.nil
  | case2 => exact Fits.singleton (by decide) (by decide)
  | case3 c rest _ ih =>
      rw [List.forall_mem_cons] at h
      exact (fits_lowerForm h.1).append (ih h.2)

/-- A capitalized word fits the word. -/
theorem fits_capitalizeWord : ∀ w : List Char, (∀ c ∈ w, isAlphanumeric c = true) →
    Fits w (capitalizeWord w)
  | [], _ => Fits.nil
  | c :: rest, h => by
      rw [List.forall_mem_cons] at h
      exact (fits_upperForm h.1).append (fits_lowerWord rest h.2)

/-- Capitalized words, put together, fit the words put together. -/
theorem fits_flatMap_capitalizeWord : ∀ ws : List (List Char),
    (∀ c ∈ ws.flatten, isAlphanumeric c = true) → Fits ws.flatten (ws.flatMap capitalizeWord)
  | [], _ => Fits.nil
  | w :: ws, h => by
      rw [List.flatten_cons, List.forall_mem_append] at h
      rw [List.flatten_cons, List.flatMap_cons]
      exact (fits_capitalizeWord w h.1).append (fits_flatMap_capitalizeWord ws h.2)

/-- So does what Pascal case makes of words. -/
theorem fits_pascal {ws : List (List Char)} (h : ∀ c ∈ ws.flatten, isAlphanumeric c = true) :
    Fits ws.flatten (pascal ws).toList := by
  rw [pascal, String.toList_ofList]
  exact fits_flatMap_capitalizeWord ws h

/-- So does what camel case makes of them. -/
theorem fits_camel {ws : List (List Char)} (h : ∀ c ∈ ws.flatten, isAlphanumeric c = true) :
    Fits ws.flatten (camel ws).toList := by
  cases ws with
  | nil => exact Fits.nil
  | cons w ws =>
      rw [List.flatten_cons, List.forall_mem_append] at h
      rw [camel, String.toList_ofList, List.flatten_cons]
      exact (fits_lowerWord w h.1).append (fits_flatMap_capitalizeWord ws h.2)

/-- What is written for the words of a name is written for the letters and numbers of the name. -/
theorem fits_name {write : List (List Char) → String} (name : String)
    (h : ∀ ws : List (List Char), (∀ c ∈ ws.flatten, isAlphanumeric c = true) →
      Fits ws.flatten (write ws).toList) :
    Fits (name.toList.filter isAlphanumeric) (write (Naming.nameWords name)).toList := by
  have hunnamed : ("unnamed".toList.all fun c => isAlphanumeric c && isNamePart c) = true := by
    decide
  simp only [List.all_eq_true, Bool.and_eq_true] at hunnamed
  rcases Naming.flatten_nameWords name with heq | ⟨heq, hnone⟩
  · have hfits := h (Naming.nameWords name)
      (by rw [heq]; exact fun c hc => (List.mem_filter.mp hc).2)
    rwa [heq] at hfits
  · have hfits := h (Naming.nameWords name) (by rw [heq]; exact fun c hc => (hunnamed c hc).1)
    have hparts := hfits.parts.mpr (by rw [heq]; exact fun c hc => (hunnamed c hc).2)
    refine ⟨hfits.letters, iff_of_true hparts ?_⟩
    rw [hnone]
    exact fun c hc => absurd hc List.not_mem_nil

/-- The Pascal-case name of a text fits the text's letters and numbers. -/
theorem fits_pascalName (name : String) :
    Fits (name.toList.filter isAlphanumeric) (Naming.pascalName name).toList :=
  fits_name name fun _ => fits_pascal

/-- The camel-case name of a text fits the text's letters and numbers. -/
theorem fits_camelName (name : String) :
    Fits (name.toList.filter isAlphanumeric) (Naming.camelName name).toList :=
  fits_name name fun _ => fits_camel

/-- No underscore is written for letters and numbers. -/
theorem Fits.underscore_not_mem {cs form : List Char} (h : Fits cs form) : '_' ∉ form := by
  intro hmem
  rcases h.letters _ hmem with hletter | hmark
  · exact absurd hletter (by decide)
  · exact absurd hmark (by decide)

end Identifier

end OpenApiZod

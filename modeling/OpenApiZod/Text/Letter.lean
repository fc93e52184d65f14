import OpenApiZod.Text.Letter.Runs
import OpenApiZod.Text.Letter.Shifts

/-!
# Letters

Character classes and case mappings for every Unicode character. Below U+0080 they are decided
by comparison, above by the tables of `Letter.Runs` and `Letter.Shifts`.
-/

namespace OpenApiZod.Text

/-- A letter or a number of any script. -/
def isAlphanumeric (c : Char) : Bool :=
  if c.toNat < 0x80 then c.isAlphanum else alphanumericRuns.any (·.covers c.toNat)

/-- A small letter. -/
def isLower (c : Char) : Bool :=
  if c.toNat < 0x80 then c.isLower else lowercaseRuns.any (·.covers c.toNat)

/-- A capital letter. -/
def isUpper (c : Char) : Bool :=
  if c.toNat < 0x80 then c.isUpper else uppercaseRuns.any (·.covers c.toNat)

/-- The image of a code point under a case mapping: a listed expansion, else the first shift
that moves it, else itself. -/
def mapCase (expansions : List (Nat × List Nat)) (shifts : List Shift) (c : Char) : List Char :=
  match expansions.lookup c.toNat with
  | some codes => codes.map Char.ofNat
  | none => [((shifts.findSome? (·.image? c.toNat)).map Char.ofNat).getD c]

/-- The capital form of a character, which may be several characters. -/
def upperForm (c : Char) : List Char :=
  if c.toNat < 0x80 then [c.toUpper] else mapCase upperExpansions upperShifts c

/-- The small form of a character, which may be several characters. -/
def lowerForm (c : Char) : List Char :=
  if c.toNat < 0x80 then [c.toLower] else mapCase lowerExpansions lowerShifts c

/-- A text in capitals. -/
def toUpper (s : String) : String :=
  String.ofList (s.toList.flatMap upperForm)

/-- A word in small letters. A capital sigma that ends the word takes its final form. -/
def lowerWord : List Char → List Char
  | [] => []
  | ['Σ'] => ['ς']
  | c :: rest => lowerForm c ++ lowerWord rest

/-- A word with a capital first letter and small letters after it. -/
def capitalizeWord : List Char → List Char
  | [] => []
  | c :: rest => upperForm c ++ lowerWord rest

/-- Text in small letters; a capital sigma after a letter and before none takes its final form. -/
def lowerText (afterLetter : Bool) : List Char → List Char
  | [] => []
  | c :: rest =>
    let letter := isLower c || isUpper c
    let final := c == 'Σ' && afterLetter && !(rest.head?.any fun d => isLower d || isUpper d)
    (if final then ['ς'] else lowerForm c) ++ lowerText letter rest

/-- A text in small letters. -/
def toLower (s : String) : String :=
  String.ofList (lowerText false s.toList)

/-- What ASCII counts as a letter or a digit, Unicode does as well. -/
theorem isAlphanumeric_of_isAlphanum {c : Char} (h : c.isAlphanum = true) :
    isAlphanumeric c = true := by
  have hc : c.toNat < 0x80 := by
    delta Char.isAlphanum Char.isAlpha Char.isUpper Char.isLower Char.isDigit at h
    simp only [Bool.or_eq_true, Bool.and_eq_true, decide_eq_true_eq, UInt32.le_iff_toNat_le] at h
    have : c.toNat = c.val.toNat := rfl
    simp at h
    omega
  simp [isAlphanumeric, hc, h]

end OpenApiZod.Text

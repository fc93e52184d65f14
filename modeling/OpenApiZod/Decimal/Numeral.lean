import OpenApiZod.Binary64

/-!
# Decimal numerals

The reading of numbers: digits to a natural number, and the shape `digits`, `.digits`,
`e±digits` that JSON and YAML numbers share.
-/

namespace OpenApiZod.Decimal

/-- The value of a digit in a base up to 16. -/
def digitValue (c : Char) : Nat :=
  if c.isDigit then c.toNat - 0x30
  else if 'a' ≤ c ∧ c ≤ 'f' then c.toNat - 0x57
  else if 'A' ≤ c ∧ c ≤ 'F' then c.toNat - 0x37
  else 16

/-- The number that digits spell in a base. -/
def ofDigits (base : Nat) (digits : List Char) : Nat :=
  digits.foldl (fun n c => base * n + digitValue c) 0

/-- The number that digits spell in a base, if there is one and each is a digit of the base. -/
def ofDigits? (base : Nat) (digits : List Char) : Option Nat :=
  if digits ≠ [] ∧ digits.all (digitValue · < base) then some (ofDigits base digits) else none

/-- The digits at the front and what follows them. -/
def spanDigits (cs : List Char) : List Char × List Char :=
  (cs.takeWhile Char.isDigit, cs.dropWhile Char.isDigit)

/-- The exponent part at the front, if `cs` starts with one, and what follows it. A mark `e`
without digits is no exponent. -/
def exponent? (cs : List Char) : Option (Int × List Char) :=
  match cs with
  | mark :: rest =>
    if mark = 'e' ∨ mark = 'E' then
      let (negative, rest) := match rest with
        | '-' :: r => (true, r)
        | '+' :: r => (false, r)
        | r => (false, r)
      match spanDigits rest with
      | ([], _) => none
      | (ds, rest) =>
        let n : Int := ofDigits 10 ds
        some (if negative then -n else n, rest)
    else none
  | [] => none

/-- The number `± whole.fraction * 10 ^ exponent`. -/
def toBinary64 (negative : Bool) (whole fraction : List Char) (exponent : Int) : Binary64 :=
  .ofDecimal negative (ofDigits 10 (whole ++ fraction)) (exponent - fraction.length)

end OpenApiZod.Decimal

import OpenApiZod.Binary64
import OpenApiZod.Decimal.Shortest

/-!
# Number texts

The two ways in which numbers are written. A bound of a validator is written positionally, with
neither an exponent nor a trailing `.0`. A JSON number is written positionally near one and in
scientific notation far from it, and always shows that it is no integer.
-/

namespace OpenApiZod.Decimal

open Shortest (Decimal)

/-- The digits of a natural number. -/
def digitsOf (n : Nat) : List Char := Nat.toDigits 10 n

/-- `n` zeros. -/
def zeros (n : Nat) : List Char := List.replicate n '0'

/-- Digits with the decimal point after the first `point` of them, padded with zeros on the side
where digits are missing. -/
def positional (digits : List Char) (point : Int) : List Char :=
  if point ≤ 0 then
    "0.".toList ++ zeros (-point).toNat ++ digits
  else if digits.length ≤ point.toNat then
    digits ++ zeros (point.toNat - digits.length)
  else
    digits.take point.toNat ++ '.' :: digits.drop point.toNat

/-- The sign of a number. -/
def signText (negative : Bool) : List Char := if negative then ['-'] else []

/-- Where the decimal point stands, counted from the first digit. -/
def pointOf (d : Decimal) : Int := d.exponent + (digitsOf d.digits).length

/-- A bound: the shortest digits, written positionally. -/
def plainText : Binary64 → String
  | .nan => "NaN"
  | .infinite negative => String.ofList (signText negative ++ "inf".toList)
  | .finite negative mantissa exponent =>
    let body :=
      if mantissa = 0 then ['0']
      else
        let d := Shortest.digits .away mantissa exponent
        positional (digitsOf d.digits) (pointOf d)
    String.ofList (signText negative ++ body)

/-- Digits in scientific notation, with a sign before the exponent. -/
def scientific (digits : List Char) (point : Int) : List Char :=
  let exponent := point - 1
  let fraction := match digits.tail with
    | [] => []
    | rest => '.' :: rest
  digits.take 1 ++ fraction ++ ['e', if exponent < 0 then '-' else '+'] ++
    digitsOf exponent.natAbs

/-- The text of a JSON number that is no integer. -/
def jsonText : Binary64 → String
  | .nan => "null"
  | .infinite _ => "null"
  | .finite negative mantissa exponent =>
    let body :=
      if mantissa = 0 then "0.0".toList
      else
        let d := Shortest.digits .even mantissa exponent
        let digits := digitsOf d.digits
        let point := pointOf d
        if 1 ≤ point ∧ point ≤ 16 then
          positional digits point ++ (if digits.length ≤ point.toNat then ".0".toList else [])
        else if -5 < point ∧ point ≤ 0 then positional digits point
        else scientific digits point
    String.ofList (signText negative ++ body)

end OpenApiZod.Decimal

/-!
# Double-precision numbers

A bound such as `minimum: 0.1` is kept as the double-precision number nearest to its decimal
spelling. `Binary64` holds such a number exactly, and `Binary64.ofDecimal` rounds a decimal
spelling to it with integer arithmetic alone; a tie goes to the even mantissa.
-/

namespace OpenApiZod

/-- A double-precision number. A finite one is `mantissa * 2 ^ exponent` with a sign; its
mantissa is below `2 ^ 53`, and at least `2 ^ 52` unless the exponent is the least one, `-1074`. -/
inductive Binary64
  | finite (negative : Bool) (mantissa : Nat) (exponent : Int)
  | infinite (negative : Bool)
  | nan
deriving DecidableEq, Repr, Inhabited

namespace Binary64

/-- Neither infinite nor undefined. -/
def isFinite : Binary64 → Bool
  | .finite .. => true
  | _ => false

/-- The integer nearest to `num / den`; of two nearest ones the even one. -/
def nearestEven (num den : Nat) : Nat :=
  let q := num / den
  let twice := 2 * (num % den)
  if twice > den || (twice == den && q % 2 == 1) then q + 1 else q

/-- `num / den / 2 ^ scale` as numerator and denominator. -/
def scaled (num den : Nat) (scale : Int) : Nat × Nat :=
  (num * Nat.pow 2 (-scale).toNat, den * Nat.pow 2 scale.toNat)

/-- The exponent at which the mantissa of `num / den` has 53 bits, or the least exponent if that
is greater. -/
def scaleOf (num den : Nat) : Int :=
  let guess : Int := max ((Nat.log2 num : Int) - (Nat.log2 den : Int) - 53) (-1074)
  let (n, d) := scaled num den guess
  if n ≥ Nat.pow 2 53 * d then guess + 1 else guess

/-- The number nearest to `± num / den`, for a positive `den`. -/
def ofRatio (negative : Bool) (num den : Nat) : Binary64 :=
  if num = 0 then
    .finite negative 0 (-1074)
  else
    let scale := scaleOf num den
    let (n, d) := scaled num den scale
    let mantissa := nearestEven n d
    let (mantissa, scale) :=
      if mantissa = Nat.pow 2 53 then (Nat.pow 2 52, scale + 1) else (mantissa, scale)
    if scale > 971 then .infinite negative else .finite negative mantissa scale

/-- The number nearest to an integer. -/
def ofInt (n : Int) : Binary64 :=
  ofRatio (n < 0) n.natAbs 1

/-- The number nearest to `± coefficient * 10 ^ exponent`. Exponents far outside the range of
finite numbers are decided by the position of the first digit. -/
def ofDecimal (negative : Bool) (coefficient : Nat) (exponent : Int) : Binary64 :=
  if coefficient = 0 then
    .finite negative 0 (-1074)
  else
    let leading := exponent + (Nat.toDigits 10 coefficient).length
    if leading > 310 then .infinite negative
    else if leading < -330 then .finite negative 0 (-1074)
    else ofRatio negative (coefficient * Nat.pow 10 exponent.toNat) (Nat.pow 10 (-exponent).toNat)

end Binary64

end OpenApiZod

/-!
# The shortest decimal

Of all decimals that round to a given double-precision number, `Shortest.digits` picks one with
the fewest digits, and among those the nearest. The search goes from coarse decimal grids to
fine ones and stops at the first grid with a point that rounds to the number; only the two grid
points on either side of the number can be that point.
-/

namespace OpenApiZod.Shortest

/-- Which of two equally near decimals is taken. -/
inductive Tie
  | even
  | away
deriving DecidableEq, Repr

/-- A decimal `digits * 10 ^ exponent`. -/
structure Decimal where
  digits : Nat
  exponent : Int
deriving DecidableEq, Repr, Inhabited

/-- The decimals with the given exponent that round to `mantissa * 2 ^ exponent`: the one nearest
to it, if any does. Distances are measured in quarters of the number's last place. -/
def onGrid (tie : Tie) (mantissa : Nat) (exponent : Int) (grid : Int) : Option Decimal :=
  let binary := exponent - 2
  let quarter := Nat.pow 2 binary.toNat * Nat.pow 10 (-grid).toNat
  let unit := Nat.pow 2 (-binary).toNat * Nat.pow 10 grid.toNat
  let value := 4 * mantissa * quarter
  let low := value - (if mantissa = Nat.pow 2 52 ∧ exponent > -1074 then 1 else 2) * quarter
  let high := value + 2 * quarter
  let rounds (d : Nat) : Bool :=
    if mantissa % 2 = 0 then low ≤ d * unit && d * unit ≤ high
    else low < d * unit && d * unit < high
  let below := value / unit
  let above := below + 1
  let chosen : Option Nat :=
    match rounds below, rounds above with
    | true, true =>
      let down := value - below * unit
      let up := above * unit - value
      if down < up then some below
      else if up < down then some above
      else match tie with
        | .away => some above
        | .even => some (if below % 2 = 0 then below else above)
    | true, false => some below
    | false, true => some above
    | false, false => none
  chosen.map fun d => ⟨d, grid⟩

/-- The shortest decimal of the positive number `mantissa * 2 ^ exponent`. No decimal of 17
digits or fewer is missed: the coarsest grid tried has no point below the number but zero. -/
def digits (tie : Tie) (mantissa : Nat) (exponent : Int) : Decimal :=
  let coarsest := ((Nat.log2 mantissa : Int) + exponent + 1) * 30103 / 100000 + 1
  ((List.range 24).findSome? fun (i : Nat) =>
    onGrid tie mantissa exponent (coarsest - (i : Int))).getD ⟨0, 0⟩

end OpenApiZod.Shortest

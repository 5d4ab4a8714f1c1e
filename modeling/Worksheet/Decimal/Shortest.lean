import Worksheet.Decimal.Binary

/-!
# Shortest decimals

The shortest decimal of a magnitude is the point of the coarsest decimal grid
that still reads back as the magnitude: the one that lies in the interval of
reals which round to it. The ends of that interval belong to it exactly when the
mantissa is even. Of two points of one grid the nearer is taken, and of two
equally near ones the larger.

All numbers are natural: grid `n` has the step `10 ^ n` in units of `10 ^
(-325)`, so the finest grid that a double can need is grid zero.
-/

namespace Worksheet.Decimal

/-- A decimal `coefficient · 10 ^ place`. -/
structure Scaled where
  coefficient : Nat
  place : Int
  deriving DecidableEq, Repr

/-- The grid unit: magnitudes are compared as multiples of `10 ^ (-325) · 2 ^
(-1074)`. -/
def gridUnit : Nat := Nat.pow 10 325

/-- The step of grid `n`, in grid units. -/
def gridStep (n : Nat) : Nat := Nat.pow 10 n * unitsOfOne

/-- Four times the lower end of the interval that rounds to the magnitude. Below
a power of two the neighbour is half as far. -/
def Binary.lowerEnd (x : Binary) : Nat :=
  (4 * x.mantissa -
    if x.mantissa = exponentBit ∧ 0 < x.exponent then 1 else 2) *
      Nat.pow 2 x.exponent

/-- Four times the upper end of the interval that rounds to the magnitude. -/
def Binary.upperEnd (x : Binary) : Nat :=
  (4 * x.mantissa + 2) * Nat.pow 2 x.exponent

/-- Whether `c` steps of grid `n` lie in the interval that rounds to the
magnitude. -/
def Binary.holds (x : Binary) (n c : Nat) : Bool :=
  let point := 4 * c * gridStep n
  let lower := x.lowerEnd * gridUnit
  let upper := x.upperEnd * gridUnit
  if x.mantissa % 2 = 0 then Nat.ble lower point && Nat.ble point upper
  else Nat.blt lower point && Nat.blt point upper

/-- The point of grid `n` that stands for the magnitude, if one does. -/
def Binary.onGrid? (x : Binary) (n : Nat) : Option Nat :=
  let step := gridStep n
  let whole := x.units * gridUnit
  let below := whole / step
  match x.holds n below, x.holds n (below + 1) with
  | true, true => some (if 2 * (whole % step) < step then below else below + 1)
  | true, false => some below
  | false, true => some (below + 1)
  | false, false => none

/-- The coarsest grid, from grid `n` downward, with a point for the
magnitude. -/
def Binary.shortestFrom (x : Binary) : Nat → Scaled
  | 0 => ⟨(x.onGrid? 0).getD 0, -325⟩
  | n + 1 =>
    match x.onGrid? (n + 1) with
    | some c => ⟨c, (n + 1 : Int) - 325⟩
    | none => x.shortestFrom n

/-- A grid whose step exceeds the magnitude; 30103 / 100000 is just above the
logarithm of two. -/
def Binary.coarseGrid (x : Binary) : Nat :=
  ((x.units * gridUnit / unitsOfOne).log2 + 1) * 30103 / 100000 + 1

/-- The shortest decimal of a magnitude; zero has no digits to shorten. -/
def Binary.shortest (x : Binary) : Scaled :=
  if x.mantissa = 0 then ⟨0, 0⟩ else x.shortestFrom x.coarseGrid

end Worksheet.Decimal

import Worksheet.Decimal.Binary

/-!
# Rounding

A quotient rounds to the nearest natural number, and a half goes to the even
neighbour. A positive rational rounds to a double by rounding its multiple of
the unit that its size allows.
-/

namespace Worksheet.Decimal

/-- The natural number nearest to `num / den`; a half goes to the even
neighbour. -/
def roundDiv (num den : Nat) : Nat :=
  let q := num / den
  let r := num % den
  if 2 * r < den then q
  else if den < 2 * r then q + 1
  else q + q % 2

/-- The pattern of the double nearest to `num / den`, unless that is beyond the
finite ones. The exponent is the least one for which the mantissa has at most 53
bits. -/
def nearestPattern (num den : Nat) : Nat :=
  let scaled := num * unitsOfOne
  let exponent := (scaled / den).log2 - 52
  Binary.pattern ⟨roundDiv scaled (den * Nat.pow 2 exponent), exponent⟩

/-- The pattern of the double nearest to `m · 10 ^ e`, infinity when that is too
large. Powers that decide the answer by themselves are not computed. -/
def decimalPattern (m : Nat) (e : Int) : Nat :=
  if m = 0 then 0
  else if 0 ≤ e then
    if 400 < e then infinityPattern
    else min infinityPattern (nearestPattern (m * Nat.pow 10 e.toNat) 1)
  else
    if (400 : Int) + m.log2 < -e then 0
    else min infinityPattern (nearestPattern m (Nat.pow 10 (-e).toNat))

/-- The double nearest to `± m · 10 ^ e`. -/
def nearest (negative : Bool) (m : Nat) (e : Int) : Float :=
  ofSignPattern negative (decimalPattern m e)

end Worksheet.Decimal

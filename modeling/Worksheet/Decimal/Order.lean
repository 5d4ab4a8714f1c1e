import Worksheet.Decimal.Binary

/-!
# The total order of doubles

Doubles are ordered by their bit patterns: negative ones backwards before the
others, so that minus zero comes before zero, and what is no number comes last.
-/

namespace Worksheet.Decimal

/-- The place of a double in the total order. -/
def rank (x : Float) : Int :=
  let bits := x.toBits.toNat
  if signBit ≤ bits then (signBit : Int) - 1 - bits else bits

/-- The lesser of two doubles, where what is no number is never lesser than a
number. -/
def lesser (x y : Float) : Float :=
  if x.isNaN then y else if y < x then y else x

def least? : List Float → Option Float
  | [] => none
  | x :: xs => some (xs.foldl lesser x)

end Worksheet.Decimal

import Worksheet.Json.Value

/-!
# Numbers of JSON

A count is a number without sign, fraction and exponent that fits in 64 bits. A
double is read quickly rather than exactly: as many leading digits as fit in 64
bits, rounded, times or divided by a power of ten, rounded again; digits of the
whole part that do not fit count as zeros, those of the fraction are dropped. A
number beyond the finite doubles is refused.
-/

namespace Worksheet.Json

open Decimal

/-- One more than the largest number of 64 bits, `2 ^ 64`. -/
def wordBound : Nat := 0x10000000000000000

/-- Appends digits to a number as long as it fits in 64 bits, and gives the
digits that are left. -/
def takeWord (n : Nat) : Text → Nat × Text
  | [] => (n, [])
  | c :: s =>
    let next := 10 * n + digitValue c
    if next < wordBound then takeWord next s else (n, c :: s)

def tenTo (k : Nat) : Float := nearest false 1 k

/-- Divides by a power of ten, at most `10 ^ 308` at a time; zero stays. -/
def divideByTen (x : Float) (k : Nat) : Float :=
  if k ≤ 308 then x / tenTo k
  else if x == 0 then x
  else divideByTen (x / tenTo 308) (k - 308)
termination_by k

/-- Multiplies by a power of ten, unless the result is not finite. -/
def scale? (x : Float) : Int → Option Float
  | .ofNat k =>
    if k ≤ 308 then
      let y := x * tenTo k
      if y.isFinite then some y else none
    else if x == 0 then some x
    else none
  | .negSucc k => some (divideByTen x (k + 1))

/-- The double that a number is read as. -/
def quickDouble? (n : Numeral) : Option Float :=
  let (whole, dropped) := takeWord 0 n.whole
  let (significand, unread) := takeWord whole n.fraction
  let power := n.power.elim 0 fun p => signedValue p.sign p.digits
  let exponent :=
    power + dropped.length - (n.fraction.length - unread.length : Nat)
  (scale? (nearest false significand 0) exponent).map fun x =>
    if n.sign = ['-'] then -x else x

/-- The double of a value that is a number. -/
def Value.double? : Value → Option Float
  | number n => quickDouble? n
  | _ => none

/-- The count of a value that is one. -/
def Value.count? : Value → Option Nat
  | number n =>
    if n.sign.isEmpty && n.fraction.isEmpty && n.power.isNone &&
      valueOf n.whole < wordBound then
      some (valueOf n.whole)
    else none
  | _ => none

/-- The value of an optional field, where null stands for absence. -/
def Value.optional? {α : Type} (f : Value → Option α) :
    Value → Option (Option α)
  | null => some none
  | v => (f v).map some

end Worksheet.Json

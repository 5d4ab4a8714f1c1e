import Worksheet.Decimal.Digits
import Worksheet.Decimal.Shortest
import Worksheet.Decimal.Rounding

/-!
# Notations for doubles

Four ways to write a double. The plain notation gives the shortest digits and
never an exponent. The round-trip notation gives the shortest digits with a
point, or with an exponent when the magnitude is below `10 ^ (-4)` or from `10 ^
16` on. The fixed notation gives a number of places, the scientific one a digit,
a number of places and an exponent; both round the exact value, halves to even.
A zero keeps its sign, and the values that are no numbers have names.
-/

namespace Worksheet.Decimal

def zeros (n : Nat) : Text := List.replicate n '0'

/-- A decimal without an exponent: zeros stand where the digits do not reach. -/
def Scaled.positional (d : Scaled) : Text :=
  let ds := digits d.coefficient
  if 0 ≤ d.place then ds ++ zeros d.place.toNat
  else
    let fraction := (-d.place).toNat
    if fraction < ds.length then
      ds.take (ds.length - fraction) ++ '.' :: ds.drop (ds.length - fraction)
    else '0' :: '.' :: (zeros (fraction - ds.length) ++ ds)

/-- A positional decimal that always shows a point. -/
def Scaled.pointed (d : Scaled) : Text :=
  if 0 ≤ d.place then d.positional ++ ['.', '0'] else d.positional

/-- The exponent of the first digit. -/
def Scaled.magnitude (d : Scaled) : Int :=
  (digits d.coefficient).length + d.place - 1

/-- A decimal as one digit, the remaining digits after a point if there are any,
and an exponent. -/
def Scaled.exponential (d : Scaled) : Text :=
  let ds := digits d.coefficient
  ds.take 1 ++ (if ds.length ≤ 1 then [] else '.' :: ds.drop 1) ++
    'e' :: signedDigits d.magnitude

def Scaled.roundTrip (d : Scaled) : Text :=
  if d.coefficient = 0 ∨ (-4 ≤ d.magnitude ∧ d.magnitude < 16) then d.pointed
  else d.exponential

/-- Puts a minus sign in front of a negative number. -/
def signed (negative : Bool) (s : Text) : Text :=
  if negative then '-' :: s else s

/-- The text of a double whose finite magnitudes are written by `write`. -/
def writeWith (write : Binary → Text) (x : Float) : Text :=
  match content x with
  | .undefined => ['N', 'a', 'N']
  | .infinite negative => signed negative ['i', 'n', 'f']
  | .finite negative magnitude => signed negative (write magnitude)

/-- The plain notation: the shortest digits, never an exponent, no point in a
whole number. -/
def plain (x : Float) : Text := writeWith (fun m => m.shortest.positional) x

def roundTrip (x : Float) : Text := writeWith (fun m => m.shortest.roundTrip) x

/-- The digits of a magnitude with `places` places after the point. -/
def Binary.fixed (places : Nat) (m : Binary) : Text :=
  let ds := digits (roundDiv (m.units * Nat.pow 10 places) unitsOfOne)
  let ds := zeros (places + 1 - ds.length) ++ ds
  ds.take (ds.length - places) ++
    if places = 0 then [] else '.' :: ds.drop (ds.length - places)

def fixed (places : Nat) (x : Float) : Text := writeWith (Binary.fixed places) x

/-- The exponent of the first digit of `num / den`, counted down from
`start`. -/
def leadingPlace (num den : Nat) : Nat → Nat
  | 0 => 0
  | start + 1 =>
    if Nat.pow 10 (start + 1) * den ≤ num then start + 1
    else leadingPlace num den start

/-- One digit, `places` places and an exponent; a magnitude that rounds up to
the next power of ten takes the next exponent. -/
def Binary.scientific (places : Nat) (m : Binary) : Text :=
  let write (coefficient : Nat) (e : Int) : Text :=
    let ds := digits coefficient
    ds.take 1 ++ (if places = 0 then [] else '.' :: ds.drop 1) ++
      'e' :: signedDigits e
  if m.mantissa = 0 then
    '0' :: ((if places = 0 then [] else '.' :: zeros places) ++ ['e', '0'])
  else
    let whole := m.units * gridUnit
    let e := leadingPlace whole unitsOfOne m.coarseGrid
    let coefficient := roundDiv (whole * Nat.pow 10 places) (gridStep e)
    if coefficient = Nat.pow 10 (places + 1) then
      write (Nat.pow 10 places) ((e : Int) - 324)
    else write coefficient ((e : Int) - 325)

def scientific (places : Nat) (x : Float) : Text :=
  writeWith (Binary.scientific places) x

end Worksheet.Decimal

import Worksheet.Text.Basic

/-!
# Binary magnitudes

A finite magnitude is `mantissa · 2 ^ exponent` in units of `2 ^ (-1074)`, the
smallest magnitude a double can hold. With the mantissa below `2 ^ 53`, and at
least `2 ^ 52` unless the exponent is zero, the bit pattern is `exponent · 2 ^
52 + mantissa`: the order of patterns is the order of magnitudes, and a mantissa
of `2 ^ 53` is the pattern of the next exponent.
-/

namespace Worksheet.Decimal

/-- A finite magnitude, in units of `2 ^ (-1074)`. -/
structure Binary where
  mantissa : Nat
  exponent : Nat
  deriving DecidableEq, Repr

/-- The lowest bit of the exponent in a bit pattern, `2 ^ 52`. -/
def exponentBit : Nat := 0x10000000000000

/-- The bit of the minus sign, `2 ^ 63`. -/
def signBit : Nat := 0x8000000000000000

/-- One, in units of `2 ^ (-1074)`. -/
def unitsOfOne : Nat := Nat.pow 2 1074

namespace Binary

/-- The magnitude of a bit pattern without its sign. -/
def ofPattern (b : Nat) : Binary :=
  if b < exponentBit then ⟨b, 0⟩
  else ⟨exponentBit + b % exponentBit, b / exponentBit - 1⟩

def pattern (x : Binary) : Nat := x.exponent * exponentBit + x.mantissa

/-- The magnitude as a multiple of `2 ^ (-1074)`. -/
def units (x : Binary) : Nat := x.mantissa * Nat.pow 2 x.exponent

theorem pattern_ofPattern (b : Nat) : (ofPattern b).pattern = b := by
  rw [ofPattern]
  split
  · simp [pattern]
  · next h =>
    have h1 : 1 ≤ b / exponentBit :=
      Nat.div_pos (Nat.le_of_not_lt h) (by decide)
    simp only [pattern, exponentBit] at *
    omega

end Binary

/-- The pattern of infinity, the first one above all finite magnitudes. -/
def infinityPattern : Nat := 2047 * exponentBit

/-- What a double holds: nothing numeric, an infinity, or a signed finite
magnitude. -/
inductive Content where
  | undefined
  | infinite (negative : Bool)
  | finite (negative : Bool) (magnitude : Binary)

def content (x : Float) : Content :=
  let bits := x.toBits.toNat
  let negative := signBit ≤ bits
  let pattern := bits % signBit
  if infinityPattern < pattern then .undefined
  else if pattern = infinityPattern then .infinite negative
  else .finite negative (.ofPattern pattern)

def ofSignPattern (negative : Bool) (pattern : Nat) : Float :=
  Float.ofBits (UInt64.ofNat ((if negative then signBit else 0) + pattern))

end Worksheet.Decimal

import Worksheet.Decimal.Numeral
import Worksheet.Text.Numeral
import Worksheet.Text.Trim

/-!
# Scalars

A scalar in a rendered text is a mantissa times a power of ten, wherever it
stands in the text, or else a numeral at the front. Digits of every script are
read, but a scalar with digits beyond ASCII has no value, and a power of ten
without a value gives way to the numeral at the front.
-/

namespace Worksheet

open Text Decimal

/-- Drops an optional character from the front. -/
def dropOptional (c : Char) : Text → Text
  | [] => []
  | d :: s => if d = c then s else d :: s

/-- Whether a character is a sign of multiplication. -/
def isTimes (c : Char) : Bool := c == '×' || c == 'x' || c == '*' || c == '·'

/-- Reads digits after an optional sign. -/
def signedDigits? (s : Text) : Option (Text × Text) :=
  let (sign, s) := takeSign s
  match takeDigits isDecimalDigit s with
  | ([], _) => none
  | (ds, rest) => some (sign ++ ds, rest)

/-- Reads a mantissa: digits after an optional sign, and an optional
fraction. -/
def mantissa? (s : Text) : Option (Text × Text) :=
  match signedDigits? s with
  | some (whole, rest) =>
    let (fraction, rest) := takeFraction isDecimalDigit rest
    some (whole ++ fractionText fraction, rest)
  | none => none

/-- Reads the exponent of a power of ten: `10`, `^`, and digits with an optional
sign and optional parentheses, with blanks between. -/
def tenPower? (s : Text) : Option (Text × Text) :=
  match trimStart s with
  | '1' :: '0' :: s =>
    match trimStart s with
    | '^' :: s =>
      (signedDigits? (trimStart (dropOptional '(' (trimStart s)))).map
        fun (exponent, rest) =>
        (exponent, dropOptional ')' (trimStart rest))
    | _ => none
  | _ => none

/-- Reads a mantissa times a power of ten at the front of a text: the texts of
mantissa and exponent, and what is left. -/
def scientificAt? (s : Text) : Option (Text × Text × Text) :=
  match mantissa? s with
  | some (mantissa, rest) =>
    match trimStart rest with
    | c :: rest =>
      if isTimes c then (tenPower? rest).map fun (exponent, rest) =>
        (mantissa, exponent, rest)
      else none
    | [] => none
  | none => none

/-- The first mantissa times a power of ten in a text. -/
def findScientific? : Text → Option (Text × Text × Text)
  | [] => none
  | c :: s =>
    match scientificAt? (c :: s) with
    | some found => some found
    | none => findScientific? s

/-- The first mantissa times a power of ten, as a value and what is left of the
text. -/
def scientific? (s : Text) : Option (Float × Text) :=
  match findScientific? s with
  | some (mantissa, exponent, rest) =>
    (value? (mantissa ++ 'e' :: exponent)).map fun x => (x, rest)
  | none => none

/-- The numeral after the leading blanks, as a value and what is left of the
text. -/
def leadingNumeral? (s : Text) : Option (Float × Text) :=
  match Numeral.readWith? isDecimalDigit (trimStart s) with
  | some (n, rest) => (value? n.text).map fun x => (x, rest)
  | none => none

/-- The scalar of a text, as a value and what is left of the text. -/
def scalar? (s : Text) : Option (Float × Text) :=
  (scientific? s).or (leadingNumeral? s)

/-- The size of what was read of a text when `rest` is left. -/
def readSize (s rest : Text) : Nat := size s - size rest

end Worksheet

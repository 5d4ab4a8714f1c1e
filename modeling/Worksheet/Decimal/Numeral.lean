import Worksheet.Decimal.Digits
import Worksheet.Decimal.Rounding

/-!
# Numerals

A numeral is an optional sign, digits, optionally a point with digits, and
optionally an `e` with an optional sign and digits. What counts as a digit is a
parameter of the reading, and reading takes the longest numeral at the front of
a text. Only numerals with ASCII digits have a value: the double nearest to the
decimal that the numeral writes.
-/

namespace Worksheet.Decimal

structure Power where
  mark : Char
  sign : Text
  digits : Text
  deriving DecidableEq, Repr

/-- A numeral in its parts; an absent part is empty. -/
structure Numeral where
  sign : Text
  whole : Text
  fraction : Text
  power : Option Power
  deriving DecidableEq, Repr

def Power.text (p : Power) : Text := p.mark :: (p.sign ++ p.digits)

/-- The point with its digits, or nothing. -/
def fractionText (fraction : Text) : Text :=
  if fraction.isEmpty then [] else '.' :: fraction

/-- The exponent part as written, or nothing. -/
def powerText (power : Option Power) : Text := power.elim [] Power.text

def Numeral.text (n : Numeral) : Text :=
  n.sign ++ (n.whole ++ (fractionText n.fraction ++ powerText n.power))

/-- Splits a sign off the front. -/
def takeSign : Text → Text × Text
  | '+' :: s => (['+'], s)
  | '-' :: s => (['-'], s)
  | s => ([], s)

/-- Splits the longest run of digits off the front. -/
def takeDigits (isDigit : Char → Bool) (s : Text) : Text × Text :=
  (s.takeWhile isDigit, s.dropWhile isDigit)

/-- Splits a point and the digits after it off the front; a point without digits
stays. -/
def takeFraction (isDigit : Char → Bool) : Text → Text × Text
  | '.' :: s =>
    match takeDigits isDigit s with
    | ([], _) => ([], '.' :: s)
    | (ds, rest) => (ds, rest)
  | s => ([], s)

/-- Splits an exponent part off the front; an `e` without digits stays. -/
def takePower (isDigit : Char → Bool) (s : Text) : Option Power × Text :=
  match s with
  | [] => (none, s)
  | c :: after =>
    if c = 'e' ∨ c = 'E' then
      let (sign, rest) := takeSign after
      match takeDigits isDigit rest with
      | ([], _) => (none, s)
      | (ds, rest) => (some ⟨c, sign, ds⟩, rest)
    else (none, s)

/-- Reads the longest numeral at the front of a text. -/
def Numeral.readWith? (isDigit : Char → Bool) (s : Text) :
    Option (Numeral × Text) :=
  let (sign, s₁) := takeSign s
  match takeDigits isDigit s₁ with
  | ([], _) => none
  | (whole, s₂) =>
    let (fraction, s₃) := takeFraction isDigit s₂
    let (power, s₄) := takePower isDigit s₃
    some (⟨sign, whole, fraction, power⟩, s₄)

/-- Reads the longest numeral with ASCII digits at the front of a text. -/
def Numeral.read? (s : Text) : Option (Numeral × Text) :=
  readWith? Char.isDigit s

/-- The integer that a sign and digits write. -/
def signedValue (sign digits : Text) : Int :=
  if sign = ['-'] then -(valueOf digits : Int) else valueOf digits

/-- The power of ten that the last digit counts. -/
def Numeral.place (n : Numeral) : Int :=
  (n.power.elim 0 fun p => signedValue p.sign p.digits) - n.fraction.length

/-- The double nearest to the decimal that the numeral writes. -/
def Numeral.value (n : Numeral) : Float :=
  nearest (n.sign = ['-']) (valueOf (n.whole ++ n.fraction)) n.place

/-- The value of a text that is one numeral and nothing else. -/
def value? (s : Text) : Option Float :=
  match Numeral.read? s with
  | some (n, []) => some n.value
  | _ => none

/-! ## Nothing is lost -/

theorem takeSign_join (s : Text) : (takeSign s).1 ++ (takeSign s).2 = s := by
  rw [takeSign.eq_def]
  split <;> rfl

theorem takeDigits_join (d : Char → Bool) (s : Text) :
    (takeDigits d s).1 ++ (takeDigits d s).2 = s :=
  List.takeWhile_append_dropWhile

theorem takeFraction_join (d : Char → Bool) (s : Text) :
    fractionText (takeFraction d s).1 ++ (takeFraction d s).2 = s := by
  rw [takeFraction.eq_def]
  split
  · next s =>
    have h := takeDigits_join d s
    split
    · rfl
    · next ds rest hne heq =>
      rw [heq] at h
      have hds : ds ≠ [] := hne
      simp only at h
      simp [fractionText, hds, h]
  · rfl

theorem takePower_join (d : Char → Bool) (s : Text) :
    powerText (takePower d s).1 ++ (takePower d s).2 = s := by
  rw [takePower.eq_def]
  split
  · rfl
  · next c after =>
    split
    · have h := takeSign_join after
      split
      next sign rest hs =>
      have h2 := takeDigits_join d rest
      rw [hs] at h
      simp only at h
      split
      · rfl
      · next ds rest' _ hd =>
        rw [hd] at h2
        simp only at h2
        simp [powerText, Power.text, h2, h]
    · rfl

/-- A numeral that was read, followed by what was left, is the text. -/
theorem Numeral.text_append_of_readWith? {d : Char → Bool} {s rest : Text}
    {n : Numeral} (h : Numeral.readWith? d s = some (n, rest)) :
    n.text ++ rest = s := by
  have h1 := takeSign_join s
  rw [Numeral.readWith?.eq_def] at h
  revert h
  generalize takeSign s = p at h1
  obtain ⟨sign, s₁⟩ := p
  simp only at h1 ⊢
  have h2 := takeDigits_join d s₁
  split
  · simp
  · next whole s₂ _ hd =>
    rw [hd] at h2
    simp only at h2
    have h3 := takeFraction_join d s₂
    have h4 := takePower_join d (takeFraction d s₂).2
    intro h
    simp only [Option.some.injEq, Prod.mk.injEq] at h
    obtain ⟨rfl, rfl⟩ := h
    simp only [Numeral.text, List.append_assoc]
    rw [h4, h3, h2, h1]

end Worksheet.Decimal

import Worksheet.Text.Basic

/-!
# JSON strings

Writing a string escapes the quote, the backslash and the control characters:
those with a letter of their own by that letter, the others by four hexadecimal
digits. Reading a string undoes every escape. Escapes of surrogates stand for
one character in pairs; a surrogate without its partner stands for no character,
so a string that holds one is well formed but has no text.
-/

namespace Worksheet.Json

/-- The digit of a number below sixteen, in lower case. -/
def hexDigit (n : Nat) : Char :=
  if n < 10 then Char.ofNat (48 + n) else Char.ofNat (87 + n)

/-- A character as it stands in a string. -/
def escape (c : Char) : Text :=
  if c = '"' then ['\\', '"']
  else if c = '\\' then ['\\', '\\']
  else if c = '\n' then ['\\', 'n']
  else if c = '\r' then ['\\', 'r']
  else if c = '\t' then ['\\', 't']
  else if c = '\x08' then ['\\', 'b']
  else if c = '\x0c' then ['\\', 'f']
  else if c.toNat < 32 then
    ['\\', 'u', '0', '0', hexDigit (c.toNat / 16), hexDigit (c.toNat % 16)]
  else [c]

def quote (s : Text) : Text := '"' :: (s.flatMap escape ++ ['"'])

/-- Texts with commas between. -/
def commaSeparated : List Text → Text
  | [] => []
  | [s] => s
  | s :: ss => s ++ ',' :: commaSeparated ss

def quotedArray (ss : List Text) : Text :=
  '[' :: (commaSeparated (ss.map quote) ++ [']'])

/-- An object whose fields are arrays of strings. -/
def quotedObject (fields : List (Text × List Text)) : Text :=
  '{' ::
    (commaSeparated
      (fields.map fun (k, ss) => quote k ++ ':' :: quotedArray ss) ++ ['}'])

/-- A unit of a string: a character, or an escaped sixteen-bit code. -/
inductive StringUnit where
  | char (c : Char)
  | code (n : Nat)
  deriving DecidableEq

def hexValue? (c : Char) : Option Nat :=
  if '0' ≤ c ∧ c ≤ '9' then some (c.toNat - 48)
  else if 'a' ≤ c ∧ c ≤ 'f' then some (c.toNat - 87)
  else if 'A' ≤ c ∧ c ≤ 'F' then some (c.toNat - 55)
  else none

def hexCode? (a b c d : Char) : Option Nat :=
  match hexValue? a, hexValue? b, hexValue? c, hexValue? d with
  | some a, some b, some c, some d => some (((a * 16 + b) * 16 + c) * 16 + d)
  | _, _, _, _ => none

/-- The character that a one-letter escape stands for. -/
def letterEscape? (c : Char) : Option Char :=
  if c = '"' ∨ c = '\\' ∨ c = '/' then some c
  else if c = 'b' then some '\x08'
  else if c = 'f' then some '\x0c'
  else if c = 'n' then some '\n'
  else if c = 'r' then some '\r'
  else if c = 't' then some '\t'
  else none

/-- Puts a unit in front of what was read. -/
def pushUnit (u : StringUnit) :
    Option (List StringUnit × Text) → Option (List StringUnit × Text)
  | some (us, rest) => some (u :: us, rest)
  | none => none

/-- Reads the units of a string, whose opening quote was passed, up to its
closing quote. -/
def readUnits? : Text → Option (List StringUnit × Text)
  | [] => none
  | '"' :: s => some ([], s)
  | '\\' :: 'u' :: a :: b :: c :: d :: s =>
    match hexCode? a b c d with
    | some n => pushUnit (.code n) (readUnits? s)
    | none => none
  | '\\' :: c :: s =>
    match letterEscape? c with
    | some c => pushUnit (.char c) (readUnits? s)
    | none => none
  | c :: s =>
    if c = '\\' ∨ c.toNat < 32 then none else pushUnit (.char c) (readUnits? s)

/-- Whether a code is the first of a surrogate pair. -/
def isHigh (n : Nat) : Bool := 0xD800 ≤ n && n < 0xDC00

/-- Whether a code is the second of a surrogate pair. -/
def isLow (n : Nat) : Bool := 0xDC00 ≤ n && n < 0xE000

/-- The text of units, if every surrogate has its partner. -/
def unitsText? : List StringUnit → Option Text
  | [] => some []
  | .char c :: us => (unitsText? us).map (c :: ·)
  | .code h :: .code l :: us =>
    if isHigh h then
      if isLow l then
        (unitsText? us).map
          (Char.ofNat (0x10000 + (h - 0xD800) * 0x400 + (l - 0xDC00)) :: ·)
      else none
    else if isLow h then none
    else (unitsText? (.code l :: us)).map (Char.ofNat h :: ·)
  | .code n :: us =>
    if isHigh n || isLow n then none
    else (unitsText? us).map (Char.ofNat n :: ·)

/-- Reads a string whose opening quote was passed: its text, if it has one, and
what is left. -/
def readString? (s : Text) : Option (Option Text × Text) :=
  (readUnits? s).map fun (us, rest) => (unitsText? us, rest)

end Worksheet.Json

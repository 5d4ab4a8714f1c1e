import Worksheet.Text.Numeral
import Worksheet.Text.Trim

/-!
# Vocabulary

The characters and words that reading a source depends on. The built-in ones are
always known; a vocabulary adds characters that may stand in a unit and names of
functions.
-/

namespace Worksheet

open Text

/-- What a sheet adds to the built-in characters and functions. -/
structure Vocabulary where
  /-- Characters that may stand in a unit, each by itself. -/
  extraUnitChars : Text
  extraFunctions : List Text
  deriving DecidableEq

namespace Vocabulary

def builtIn : Vocabulary := ⟨[], []⟩

/-- Whether blanks are all that a vocabulary adds. -/
def isEmpty (v : Vocabulary) : Bool :=
  isAllBlank v.extraUnitChars && v.extraFunctions.all isAllBlank

/-- The symbols that may stand in a unit beside letters and numerals. -/
def unitSymbols : Text :=
  ['°', 'Ω', 'µ', 'μ', '·', '^', '/', '%', '‰', '′', '″', '_', '²', '³', '⁻']

/-- The symbols that may begin a unit beside letters. -/
def unitStartSymbols : Text := ['°', 'Ω', 'µ', 'μ', '%', '‰', '′', '″']

/-- The characters that a unit does not end with. -/
def unitJoiners : Text := ['^', '/', '-', '·', '_']

/-- The signs of arithmetic, comparison and grouping. -/
def operators : Text :=
  ['+', '-', '*', '/', '^', '(', ')', '[', ']', '{', '}', '÷', '×', '·', '<',
   '>', '≤', '≥', '≡', '≠', '!', '|', '&', '√', '∛', '∜', '\\']

def functions : List Text :=
  ["abs", "sign", "sqrt", "cbrt", "root", "exp", "ln", "log", "log_2", "sin",
   "cos", "tan", "cot", "sec", "csc", "asin", "acos", "atan", "atan2", "acot",
   "sinh", "cosh", "tanh", "coth", "asinh", "acosh", "atanh", "round", "floor",
   "ceiling", "trunc", "mod", "gcd", "lcm", "min", "max", "sum", "sumsq",
   "average", "product", "mean", "hypot", "if", "switch", "not", "and", "or",
   "xor", "fact", "random", "re", "im", "phase", "take", "line",
   "spline"].map String.toList

/-- Whether a character is a sign of arithmetic, comparison or grouping. -/
def isOperator (c : Char) : Bool := operators.contains c

/-- Whether the vocabulary adds a character to the units. -/
def addsUnitChar (v : Vocabulary) (c : Char) : Bool :=
  v.extraUnitChars.contains c && !isBlank c

/-- Whether a character may stand in a unit. -/
def isUnitChar (v : Vocabulary) (c : Char) : Bool :=
  isAlphanumeric c || unitSymbols.contains c || v.addsUnitChar c

/-- Whether a character may begin a unit. An added operator or digit continues a
unit only. -/
def isUnitStart (v : Vocabulary) (c : Char) : Bool :=
  isAlphabetic c || unitStartSymbols.contains c ||
    (v.addsUnitChar c && !isOperator c && !c.isDigit)

/-- Whether a name is that of a known function. -/
def knowsFunction (v : Vocabulary) (name : Text) : Bool :=
  functions.contains name ||
    (!name.isEmpty && (v.extraFunctions.map trim).contains name)

end Vocabulary
end Worksheet

import Worksheet.Source.Vocabulary

/-!
# Unit tokens

A unit token begins with a character that may begin a unit and goes on with
characters that may stand in one, or with a minus sign right after `^`; it does
not end with a joiner such as `/`. Reading takes the longest run of such
characters and gives the joiners at its end back.
-/

namespace Worksheet.Vocabulary

open Text

/-- Whether a character may follow `before` inside a unit. -/
def continuesUnit (v : Vocabulary) (before c : Char) : Bool :=
  v.isUnitChar c || (c == '-' && before == '^')

/-- The longest run of characters that continue a unit after the character
`before`. -/
def unitRun (v : Vocabulary) (before : Char) : Text → Text
  | [] => []
  | c :: s => if v.continuesUnit before c then c :: v.unitRun c s else []

/-- The longest unit token at the front of a text, empty when there is none. -/
def unitToken (v : Vocabulary) : Text → Text
  | [] => []
  | c :: s =>
    if v.isUnitStart c then dropEndWhile unitJoiners.contains
      (c :: v.unitRun c s) else []

/-- A text that is one unit token, or empty for no unit. -/
def wholeUnit? (v : Vocabulary) (s : Text) : Option Text :=
  if v.unitToken s = s then some s else none

/-- Whether each character continues a unit after the one before it. -/
def isUnitTail (v : Vocabulary) (before : Char) : Text → Bool
  | [] => true
  | c :: s => v.continuesUnit before c && v.isUnitTail c s

end Worksheet.Vocabulary

import Worksheet.Source.Unit
import Worksheet.Source.Expression
import Worksheet.Source.Statement

/-!
# Classification of segments

A segment gives a name a right side when it holds exactly one assignment sign
and the text before the sign is a name. The right side is an input (`?` with
braces and a unit, or `?` with a unit alone), else a number with a unit, else an
expression, else something of no known kind.
-/

namespace Worksheet.Vocabulary

open Text

/-- The plain and the full-width equals sign. -/
def isEquals (c : Char) : Bool := c == '=' || c == '＝'

/-- Whether an equals sign after the character belongs to a comparison. -/
def comparesBefore (c : Char) : Bool :=
  isEquals c || c == '<' || c == '>' || c == '!' || c == '≤' || c == '≥'

/-- A text cut at an assignment sign. -/
structure Assignment where
  left : Text
  sign : Char
  right : Text

/-- The cuts of a text at its assignment signs; `before` is what was read
already, backwards. -/
def assignmentsAfter (before : Text) : Text → List Assignment
  | [] => []
  | c :: s =>
    if isEquals c && !s.head?.any isEquals &&
      !before.head?.any comparesBefore then
      ⟨before.reverse, c, s⟩ :: assignmentsAfter (c :: before) s
    else assignmentsAfter (c :: before) s

/-- The cuts of a text at its assignment signs. -/
def assignments (s : Text) : List Assignment := assignmentsAfter [] s

/-- Cuts a text before the first character `mark`, which is dropped. -/
def cutAtChar? (mark : Char) : Text → Option (Text × Text)
  | [] => none
  | c :: s =>
    if c = mark then some ([], s)
    else (cutAtChar? mark s).map fun (a, b) => (c :: a, b)

/-- An input: the place of its literal, if it has braces, and its unit. -/
def input? (v : Vocabulary) : Text → Option (Option Slot × Text)
  | '?' :: marked =>
    match trimStart marked with
    | '{' :: braced =>
      match cutAtChar? '}' braced with
      | some (inside, rest) =>
        (v.wholeUnit? (trim rest)).map fun unit =>
          (some ⟨'?' :: (leading marked ++ '{' :: leading inside), trim inside,
            trailing inside ++ '}' :: rest⟩, unit)
      | none => none
    | bare => (v.wholeUnit? bare).map fun unit => (none, unit)
  | _ => none

/-- A number with a unit: the place of the number and the unit. -/
def literal? (v : Vocabulary) (body : Text) : Option (Slot × Text) :=
  match Decimal.Numeral.read? body with
  | some (n, rest) =>
    (v.wholeUnit? (trimStart rest)).map fun unit => (⟨[], n.text, rest⟩, unit)
  | none => none

/-- What the right side of a name says. The text in front of the right side
belongs to the place of its literal; `joined` tells whether a marker precedes
the segment. -/
def classifyRight (v : Vocabulary) (joined : Bool) (name front right : Text) :
    Statement :=
  let body := trim right
  let place (s : Slot) : Slot :=
    s.within (front ++ leading right) (trailing right)
  match v.input? body with
  | some (slot, unit) =>
    .declared (if joined then .joined else .input) name
      (slot.map place) unit body
  | none =>
    match v.literal? body with
    | some (slot, unit) =>
      .declared (if joined then .joined else .literal) name
        (some (place slot)) unit body
    | none =>
      if v.isExpression body then .equation name body else .named name body

def classify (v : Vocabulary) (joined : Bool) (segment : Text) : Statement :=
  if isAllBlank segment then .blank
  else
    match assignments segment with
    | [⟨left, sign, right⟩] =>
      if isName (trim left) then
        v.classifyRight joined (trim left) (left ++ [sign]) right
      else .unnamed
    | _ => .unnamed

end Worksheet.Vocabulary

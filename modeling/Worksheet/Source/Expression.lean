import Worksheet.Source.Vocabulary
import Worksheet.Source.Name

/-!
# Expressions

A right side is an expression when it holds an operator, or calls a known
function: a name followed, after optional blanks, by an opening parenthesis.
-/

namespace Worksheet.Vocabulary

open Text

/-- Whether a text begins, after blanks, with an opening parenthesis. -/
def opensCall (s : Text) : Bool := (trimStart s).head? == some '('

/-- Whether a text calls a known function. -/
def callsFunction (v : Vocabulary) (s : Text) : Bool :=
  match _h : s.dropWhile (fun c => !isNameStart c) with
  | [] => false
  | c :: after =>
    let name := c :: after.takeWhile isNameChar
    let rest := after.dropWhile isNameChar
    (opensCall rest && v.knowsFunction name) || v.callsFunction rest
termination_by s.length
decreasing_by
  have h1 :=
    (List.dropWhile_sublist (fun c => !isNameStart c) (l := s)).length_le
  have h2 := (List.dropWhile_sublist isNameChar (l := after)).length_le
  rw [_h] at h1
  simp only [List.length_cons] at h1
  omega

/-- Whether a right side is an expression. -/
def isExpression (v : Vocabulary) (s : Text) : Bool :=
  s.any isOperator || v.callsFunction s

end Worksheet.Vocabulary

import Worksheet.Text.Basic

/-!
# Rows

A text is cut into rows after each line feed. A row keeps its content apart from
its ending, which is a line feed, a carriage return with a line feed, or nothing
when the text stops without a line feed. A carriage return alone does not end a
row.
-/

namespace Worksheet.Text

/-- What stands at the end of a row. -/
inductive Ending where
  | feed
  | returnFeed
  | open
  deriving DecidableEq, Repr

def Ending.text : Ending → Text
  | .feed => ['\n']
  | .returnFeed => ['\r', '\n']
  | .open => []

structure Row where
  content : Text
  ending : Ending
  deriving DecidableEq, Repr

def Row.text (r : Row) : Text := r.content ++ r.ending.text

/-- Puts a character in front of the first row; alone it is a row without
an ending. -/
def pushFront (c : Char) : List Row → List Row
  | [] => [⟨[c], .open⟩]
  | ⟨content, ending⟩ :: rows => ⟨c :: content, ending⟩ :: rows

/-- The rows of a text, in order. -/
def rows : Text → List Row
  | [] => []
  | '\r' :: '\n' :: s => ⟨[], .returnFeed⟩ :: rows s
  | '\n' :: s => ⟨[], .feed⟩ :: rows s
  | c :: s => pushFront c (rows s)

def lines (s : Text) : List Text := (rows s).map Row.content

theorem flatMap_text_pushFront (c : Char) (rs : List Row) :
    (pushFront c rs).flatMap Row.text = c :: rs.flatMap Row.text := by
  cases rs with
  | nil => rfl
  | cons r rs => rfl

/-- The rows of a text make up the text. -/
theorem flatMap_text_rows (s : Text) : (rows s).flatMap Row.text = s := by
  fun_induction rows s with
  | case1 => rfl
  | case2 s ih => simp [Row.text, Ending.text, ih]
  | case3 s ih => simp [Row.text, Ending.text, ih]
  | case4 c s _ _ ih => rw [flatMap_text_pushFront, ih]

end Worksheet.Text

import Worksheet.Text.Blank

/-!
# Margins

The blank characters at either end of a text are its margins. A text is its
leading margin, its core and its trailing margin; trimming keeps the core. A
text of blanks only is all leading margin.
-/

namespace Worksheet.Text

def trimStart (s : Text) : Text := s.dropWhile isBlank

def leading (s : Text) : Text := s.takeWhile isBlank

/-- The text without the characters at its end that satisfy `p`. -/
def dropEndWhile (p : Char → Bool) (s : Text) : Text :=
  (s.reverse.dropWhile p).reverse

/-- The longest end of the text whose characters all satisfy `p`. -/
def takeEndWhile (p : Char → Bool) (s : Text) : Text :=
  (s.reverse.takeWhile p).reverse

def trimEnd (s : Text) : Text := dropEndWhile isBlank s

def trim (s : Text) : Text := trimEnd (trimStart s)

/-- The blanks after the core. -/
def trailing (s : Text) : Text := takeEndWhile isBlank (trimStart s)

theorem dropEndWhile_append_takeEndWhile (p : Char → Bool) (s : Text) :
    dropEndWhile p s ++ takeEndWhile p s = s := by
  rw [dropEndWhile, takeEndWhile, ← List.reverse_append,
    List.takeWhile_append_dropWhile, List.reverse_reverse]

theorem leading_append_trimStart (s : Text) : leading s ++ trimStart s = s :=
  List.takeWhile_append_dropWhile

/-- Nothing is lost: the margins and the core make up the text. -/
theorem leading_append_trim_append_trailing (s : Text) :
    leading s ++ (trim s ++ trailing s) = s := by
  rw [trim, trailing, trimEnd, dropEndWhile_append_takeEndWhile,
    leading_append_trimStart]

end Worksheet.Text

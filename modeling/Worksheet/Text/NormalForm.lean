import Worksheet.Text.Blank

/-!
# Normal form

A text is in normal form when its only blank characters are the space and the
line feed, no two spaces stand together, and it holds no full-width equals sign.
Normalising turns every line break (carriage return with or without a line feed,
line feed, next line, line separator, paragraph separator) into one line feed,
every other run of blanks into one space, and the full-width equals sign into
the plain one.
-/

namespace Worksheet.Text

/-- The characters that break a line by themselves. -/
def isLineBreak (c : Char) : Bool :=
  c == '\n' || c == '\r' || c == '\u0085' || c == '\u2028' || c == '\u2029'

/-- Normalising from inside a run of blanks, where the space is written already,
or outside one. -/
def normalizeFrom (inRun : Bool) : Text → Text
  | [] => []
  | '\r' :: '\n' :: s => '\n' :: normalizeFrom false s
  | c :: s =>
    if isLineBreak c then '\n' :: normalizeFrom false s
    else if isBlank c then
      if inRun then normalizeFrom true s else ' ' :: normalizeFrom true s
    else if c = '＝' then '=' :: normalizeFrom false s
    else c :: normalizeFrom false s

def normalize (s : Text) : Text := normalizeFrom false s

/-- No two spaces stand together. -/
def noDoubleSpace : Text → Bool
  | ' ' :: ' ' :: _ => false
  | _ :: s => noDoubleSpace s
  | [] => true

structure IsNormal (s : Text) : Prop where
  blanks : ∀ c ∈ s, isBlank c = true → c = ' ' ∨ c = '\n'
  single : noDoubleSpace s = true
  equals : '＝' ∉ s

end Worksheet.Text

import Worksheet.Text.CodeRange

/-!
# Blank characters

The characters with the Unicode property `White_Space`: the ASCII controls from
tab to carriage return, the space, the next-line control, and the spaces and
separators beyond ASCII.
-/

namespace Worksheet.Text

def blankRanges : List CodeRange :=
  [(0x9, 0xD), (0x20, 0x20), (0x85, 0x85), (0xA0, 0xA0), (0x1680, 0x1680),
   (0x2000, 0x200A), (0x2028, 0x2029), (0x202F, 0x202F), (0x205F, 0x205F),
   (0x3000, 0x3000)]

def isBlank (c : Char) : Bool := inRanges blankRanges c

/-- A text of blank characters only. -/
def isAllBlank (s : Text) : Bool := s.all isBlank

end Worksheet.Text

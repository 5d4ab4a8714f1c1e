import Worksheet.Markup.RenderedLine
import Worksheet.Source.Name

/-!
# Result blocks

A line of a rendered output opens a result when it begins with a name and an
equals sign. The block of a result is its opening line and the lines after it up
to the next opening line; lines without text belong to no block. The tail of a
block, which holds the final value, is what follows its last equals sign on that
line.
-/

namespace Worksheet

open Text Markup

/-- The lines of one result, with their texts and their markups joined by line
feeds. -/
structure ResultBlock where
  name : Text
  text : Text
  markup : Text
  deriving DecidableEq

/-- The name that a line opens: a name at its front, blanks, and an equals sign
that stands alone. -/
def openingName? (line : Text) : Option Text :=
  match takeName? (trimStart line) with
  | some (name, rest) =>
    match trimStart rest with
    | '=' :: after => if after.head? == some '=' then none else some name
    | _ => none
  | none => none

namespace ResultBlock

/-- A block without lines. -/
def empty (name : Text) : ResultBlock := ⟨name, [], []⟩

/-- Adds a line; it is set off by a line feed unless the block has no text
yet. -/
def addLine (b : ResultBlock) (line : RenderedLine) : ResultBlock :=
  let gap := if b.text.isEmpty then [] else ['\n']
  { b with text := b.text ++ gap ++ line.text,
           markup := b.markup ++ gap ++ line.markup }

/-- The block of a name and lines. -/
def ofLines (name : Text) (lines : List RenderedLine) : ResultBlock :=
  lines.foldl addLine (empty name)

/-- What follows the last occurrence of a character. -/
def afterLast? (mark : Char) : Text → Option Text
  | [] => none
  | c :: s =>
    match afterLast? mark s with
    | some rest => some rest
    | none => if c = mark then some s else none

/-- The text after the last equals sign, to the end of its line. -/
def tail (b : ResultBlock) : Text :=
  match afterLast? '=' b.text with
  | some rest => rest.takeWhile (· != '\n')
  | none => []

end ResultBlock

/-- The lines in front of the first opening line, and each opened name with its
lines. -/
def groupLines : List RenderedLine →
    List RenderedLine × List (Text × List RenderedLine)
  | [] => ([], [])
  | line :: lines =>
    let (before, groups) := groupLines lines
    match openingName? line.text with
    | some name => ([], (name, line :: before) :: groups)
    | none => (line :: before, groups)

/-- The blocks of a rendered output. -/
def resultBlocks (output : Text) : List ResultBlock :=
  let lines := (renderedLines output).filter (!·.text.isEmpty)
  (groupLines lines).2.map fun (name, lines) => .ofLines name lines

/-- The block that holds the final value of a name: the last one. -/
def findBlock? (blocks : List ResultBlock) (name : Text) : Option ResultBlock :=
  blocks.reverse.find? (·.name == name)

end Worksheet

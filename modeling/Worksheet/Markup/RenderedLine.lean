import Worksheet.Markup.Token
import Worksheet.Text.NormalForm

/-!
# Rendered lines

A rendered output is cut into lines after each tag that ends a line, and at each
line feed and carriage return outside tags, which are dropped. Each line keeps
its markup beside its text.
-/

namespace Worksheet.Markup

open Text

/-- A line of a rendered output. -/
structure RenderedLine where
  text : Text
  markup : Text
  deriving DecidableEq

/-- The line of a piece of markup: its text is normalised and trimmed. -/
def RenderedLine.ofMarkup (markup : Text) : RenderedLine :=
  ⟨trim (normalize (meaning markup)), markup⟩

/-- Puts a text in front of the first piece. -/
def pushPiece (s : Text) : List Text → List Text
  | [] => [s]
  | p :: ps => (s ++ p) :: ps

/-- Whether a token breaks a line and is dropped. -/
def Token.isBreak : Token → Bool
  | .char c => c == '\n' || c == '\r'
  | _ => false

/-- Whether a token ends a line and belongs to it. -/
def Token.endsLine : Token → Bool
  | .tag t => t.endsLine
  | _ => false

/-- Cuts tokens into the markup of lines. -/
def pieces : List Token → List Text
  | [] => [[]]
  | .char '\r' :: .char '\n' :: ts => [] :: pieces ts
  | t :: ts =>
    if t.isBreak then [] :: pieces ts
    else if t.endsLine then t.text :: pieces ts
    else pushPiece t.text (pieces ts)

/-- The lines of a rendered output. -/
def renderedLines (markup : Text) : List RenderedLine :=
  (pieces (tokens markup)).map RenderedLine.ofMarkup

/-- The tokens after the last equals sign. -/
def afterEquals? : List Token → Option (List Token)
  | [] => none
  | t :: ts =>
    match afterEquals? ts with
    | some rest => some rest
    | none => if t = .char '=' ∨ t = .char '＝' then some ts else none

/-- The markup after the last equals sign outside tags, to the end of its
row. -/
def tail (markup : Text) : Text :=
  match afterEquals? (tokens markup) with
  | some ts => (unlex ts).takeWhile (· != '\n')
  | none => []

end Worksheet.Markup

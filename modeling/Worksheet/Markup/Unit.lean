import Worksheet.Markup.RenderedLine
import Worksheet.Text.Alphabetic

/-!
# Units in a markup

A unit is drawn as a fraction or set in italics. A fraction is the last `span`
of class `dvc`; its numerator and denominator stand before and after an empty
`span` of class `dvl`, or are its first two child spans. An italic unit is what
the last `i` element holds. Either may be raised to a power by a `sup` element
right after it.
-/

namespace Worksheet.Markup

open Text

/-- A tag with the text that follows it up to the next tag. -/
structure Tagged where
  tag : Tag
  after : Text

/-- The tag and the text as written. -/
def Tagged.text (t : Tagged) : Text := t.tag.text ++ t.after

/-- Tags with their texts, as written. -/
def joinTagged (ts : List Tagged) : Text := ts.flatMap Tagged.text

/-- The text before the first tag, and the tags with the texts that follow
them. -/
def splitTags : List Token → Text × List Tagged
  | [] => ([], [])
  | .tag t :: ts => let (s, rest) := splitTags ts; ([], ⟨t, s⟩ :: rest)
  | t :: ts => let (s, rest) := splitTags ts; (t.text ++ s, rest)

/-- The tags of a markup with the texts that follow them. -/
def taggedTexts (markup : Text) : List Tagged := (splitTags (tokens markup)).2

/-- The last tag that satisfies `p`, and those after it. -/
def lastTag? (p : Tag → Bool) : List Tagged → Option (Tagged × List Tagged)
  | [] => none
  | t :: ts =>
    match lastTag? p ts with
    | some found => some found
    | none => if p t.tag then some (t, ts) else none

/-- The text of a unit: what a markup means, without blanks. -/
def unitText (markup : Text) : Text :=
  (normalize (meaning markup)).filter (!isBlank ·)

/-- The power that a `sup` element at the front of a markup gives, with its
sign; the element ends at the first closing tag written in lower case. -/
def power (markup : Text) : Text :=
  match Tag.read? (trimStart markup) with
  | some (t, rest) =>
    if t.opens "sup".toList then
      match cutAt? "</sup>".toList rest with
      | some (inside, _) =>
        let exponent := unitText inside
        if exponent.isEmpty then [] else '^' :: exponent
      | none => []
    else []
  | none => []

/-- The texts up to the first tag that satisfies `p`, and what follows that
tag. -/
def untilTag? (p : Tag → Bool) : List Tagged → Option (Text × Text)
  | [] => none
  | t :: ts =>
    if p t.tag then some ([], t.after ++ joinTagged ts)
    else (untilTag? p ts).map fun (before, after) => (t.text ++ before, after)

/-- The unit that the last `i` element holds, with its power. -/
def italicUnit? (markup : Text) : Option Text :=
  match lastTag? (·.opens ['i']) (taggedTexts markup) with
  | some (opening, following) =>
    match untilTag? (·.closes ['i']) following with
    | some (inside, after) =>
      let unit := unitText (opening.after ++ inside)
      if unit.isEmpty then none else some (unit ++ power after)
    | none => none
  | none => none

/-- A part of a fraction: a child span, or what stands outside the child
spans. -/
inductive Part where
  | loose (markup : Text)
  | child (opening : Tag) (inside closing : Text)

/-- The part as written. -/
def Part.text : Part → Text
  | loose markup => markup
  | child opening inside closing => opening.text ++ (inside ++ closing)

/-- Whether the part is the line between numerator and denominator. -/
def Part.isRule : Part → Bool
  | loose _ => false
  | child opening inside _ =>
    opening.classes.contains "dvl".toList && (unitText inside).isEmpty

/-- What the child spans hold. -/
def Part.inside? : Part → Option Text
  | loose _ => none
  | child _ inside _ => some inside

/-- The end of a span: the rest of the child that is open and its closing tag,
both empty when none is open, the parts after it, and the markup after the
span. -/
structure SpanEnd where
  inside : Text
  closing : Text
  parts : List Part
  after : Text

/-- Reads to the end of a span, inside which `depth` further spans are open. -/
def spanEnd? : (depth : Nat) → List Tagged → Option SpanEnd
  | _, [] => none
  | 0, t :: ts =>
    if t.tag.opens "span".toList then
      (spanEnd? 1 ts).map fun e =>
        { e with inside := [], closing := [],
                 parts :=
                   .child t.tag (t.after ++ e.inside) e.closing :: e.parts }
    else if t.tag.closes "span".toList then
      some ⟨[], [], [], t.after ++ joinTagged ts⟩
    else (spanEnd? 0 ts).map fun e =>
      { e with parts := .loose t.text :: e.parts }
  | depth + 1, t :: ts =>
    if t.tag.opens "span".toList then
      (spanEnd? (depth + 2) ts).map fun e =>
        { e with inside := t.text ++ e.inside }
    else if t.tag.closes "span".toList then
      if depth = 0 then
        (spanEnd? 0 ts).map fun e =>
          { e with inside := [], closing := t.tag.text,
                   parts := .loose t.after :: e.parts }
      else (spanEnd? depth ts).map fun e =>
        { e with inside := t.text ++ e.inside }
    else (spanEnd? (depth + 1) ts).map fun e =>
      { e with inside := t.text ++ e.inside }

/-- Parts as written. -/
def joinParts (ps : List Part) : Text := ps.flatMap Part.text

/-- The markups of numerator and denominator among the parts of a fraction. -/
def fractionParts? (parts : List Part) : Option (Text × Text) :=
  match parts.dropWhile (!·.isRule) with
  | _ :: below =>
    some (joinParts (parts.takeWhile (!·.isRule)), joinParts below)
  | [] =>
    match parts.filterMap Part.inside? with
    | numerator :: denominator :: _ => some (numerator, denominator)
    | _ => none

/-- The unit that the last fraction shows, with its power; a fraction of mere
numbers is none. -/
def fractionUnit? (markup : Text) : Option Text :=
  let isFraction (t : Tag) : Bool :=
    t.opens "span".toList && t.classes.contains "dvc".toList
  match lastTag? isFraction (taggedTexts markup) with
  | some (opening, following) =>
    match spanEnd? 0 following with
    | some e =>
      match fractionParts? (.loose opening.after :: e.parts) with
      | some (above, below) =>
        let numerator := unitText above
        let denominator := unitText below
        if numerator.isEmpty || denominator.isEmpty then none
        else if numerator.any isAlphabetic || denominator.any isAlphabetic then
          some (numerator ++ '/' :: denominator ++ power e.after)
        else none
      | none => none
    | none => none
  | none => none

end Worksheet.Markup

import Worksheet.Decimal.Numeral

/-!
# Statements

A statement is what one segment of a line says. A declaration keeps the place of
its literal: the text of the segment before the literal, the literal, and the
text after it, so that another literal can be written in its place.
-/

namespace Worksheet

/-- Where a literal stands in a text. -/
structure Slot where
  before : Text
  literal : Text
  after : Text
  deriving DecidableEq

def Slot.text (s : Slot) : Text := s.before ++ (s.literal ++ s.after)

/-- The text with another literal in the slot. -/
def Slot.fill (s : Slot) (literal : Text) : Text :=
  s.before ++ (literal ++ s.after)

/-- The slot inside a longer text. -/
def Slot.within (s : Slot) (front back : Text) : Slot :=
  ⟨front ++ s.before, s.literal, s.after ++ back⟩

inductive Form where
  /-- An input, marked with `?`, first on its line. -/
  | input
  /-- A declaration of either kind after a marker. -/
  | joined
  /-- A bare number, first on its line. -/
  | literal
  deriving DecidableEq, Repr

inductive Statement where
  /-- Nothing. -/
  | blank
  /-- Text that gives no name a right side. -/
  | unnamed
  /-- A declared value; an input without braces has no slot. -/
  | declared (form : Form) (name : Text) (slot : Option Slot) (unit body : Text)
  /-- A name with an expression. -/
  | equation (name body : Text)
  /-- A name with a right side of no known kind. -/
  | named (name body : Text)
  deriving DecidableEq

inductive Kind where
  | blank
  | comment
  | input
  | joined
  | literal
  | equation
  | other
  deriving DecidableEq, Repr

def Form.kind : Form → Kind
  | .input => .input
  | .joined => .joined
  | .literal => .literal

def Kind.isDeclaration : Kind → Bool
  | .input | .joined | .literal => true
  | _ => false

namespace Statement

def kind : Statement → Kind
  | blank => .blank
  | unnamed => .other
  | declared form .. => form.kind
  | equation .. => .equation
  | named .. => .other

def name? : Statement → Option Text
  | blank | unnamed => none
  | declared _ name .. => some name
  | equation name _ => some name
  | named name _ => some name

def slot? : Statement → Option Slot
  | declared _ _ slot .. => slot
  | _ => none

/-- The declared value; a slot that holds no numeral declares none. -/
def value? (s : Statement) : Option Float :=
  s.slot?.bind fun slot => Decimal.value? slot.literal

def unit : Statement → Text
  | declared _ _ _ unit _ => unit
  | _ => []

/-- The right side without its margins. -/
def body : Statement → Text
  | declared _ _ _ _ body => body
  | equation _ body => body
  | named _ body => body
  | _ => []

/-- Whether the statement holds a slot for the value of a name. -/
def declares (s : Statement) (name : Text) : Bool :=
  s.slot?.isSome && s.name? == some name

end Statement
end Worksheet

import Worksheet.Source.Line
import Worksheet.Text.Row

/-!
# Variables

The declared values of a source, in the order in which their names first appear.
A name that is declared again keeps its place and takes the later value, unit
and origin.
-/

namespace Worksheet

open Text

/-- Where the value of a variable comes from. -/
inductive Origin where
  /-- An input, or a declaration after a mark. -/
  | explicit
  /-- A bare number. -/
  | literal
  deriving DecidableEq, Repr

def Form.origin : Form → Origin
  | .input | .joined => .explicit
  | .literal => .literal

structure Variable where
  name : Text
  value : Float
  unit : Text
  origin : Origin
  deriving DecidableEq

def Variable.hasUnit (x : Variable) : Bool := !x.unit.isEmpty

/-- Variables with distinct names, in the order of first appearance. -/
abbrev VariableTable := List Variable

namespace VariableTable

/-- Writes a variable: in its place when the name is there, else at the end. -/
def upsert (x : Variable) : VariableTable → VariableTable
  | [] => [x]
  | y :: ys => if y.name = x.name then x :: ys else y :: upsert x ys

def names (t : VariableTable) : List Text := t.map Variable.name

def position? (t : VariableTable) (name : Text) : Option Nat :=
  t.findIdx? (·.name == name)

def find? (t : VariableTable) (name : Text) : Option Variable :=
  List.find? (·.name == name) t

def ofList (xs : List Variable) : VariableTable :=
  xs.foldl (fun t x => upsert x t) []

end VariableTable

/-- The variable that a statement declares, if it has a value. -/
def Statement.variable? : Statement → Option Variable
  | .declared form name slot unit _ =>
    (slot.bind fun s => Decimal.value? s.literal).map fun value =>
      ⟨name, value, unit, form.origin⟩
  | _ => none

namespace Vocabulary

/-- The values that a source declares, in order, repeated names included. -/
def declarations (v : Vocabulary) (explicitOnly : Bool) (source : Text) :
    List Variable :=
  ((lines source).flatMap fun l =>
    (Line.read v l).statements.filterMap Statement.variable?).filter
      fun x => x.origin == .explicit || !explicitOnly

def variableTable (v : Vocabulary) (explicitOnly : Bool) (source : Text) :
    VariableTable :=
  .ofList (v.declarations explicitOnly source)

/-- The equations of a source, in order. -/
def equations (v : Vocabulary) (source : Text) : List Equation :=
  (lines source).filterMap fun l => (Line.read v l).equation?

end Vocabulary
end Worksheet

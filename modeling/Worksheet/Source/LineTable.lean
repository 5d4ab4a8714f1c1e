import Worksheet.Error
import Worksheet.Source.Line
import Worksheet.Text.Row

/-!
# Line tables

A line table is a source cut into lines that have been read, each with
its ending. Writing a value fills the slot of the first declaration of a
name and reads that line again; all else stays as it is.
-/

namespace Worksheet

open Text

/-- Replaces the first element that `f` replaces. -/
def replaceFirst? {α : Type} (f : α → Option α) : List α → Option (List α)
  | [] => none
  | a :: as =>
    match f a with
    | some b => some (b :: as)
    | none => (replaceFirst? f as).map (a :: ·)

structure LineRow where
  line : Line
  ending : Ending
  deriving DecidableEq

/-- A source cut into lines that have been read. -/
abbrev LineTable := List LineRow

/-- The clause with a literal in its slot, when it declares the name; what the
new text says is for the line to read. -/
def Clause.fill? (c : Clause) (name literal : Text) : Option Clause :=
  if c.statement.declares name then
    c.statement.slot?.map fun s => ⟨s.fill literal, c.statement⟩
  else none

/-- The line with a literal in the slot of its first declaration of the name,
read again. -/
def Line.fill? (v : Vocabulary) (l : Line) (name literal : Text) :
    Option Line :=
  match replaceFirst? (·.fill? name literal) l.clauses with
  | some (first :: others) =>
    some (.read v (Line.text ⟨first, others, l.comment⟩))
  | _ => none

namespace LineTable

def read (v : Vocabulary) (source : Text) : LineTable :=
  (rows source).map fun r => ⟨.read v r.content, r.ending⟩

def source (t : LineTable) : Text :=
  t.flatMap fun r => r.line.text ++ r.ending.text

/-- The place of the first declaration of a name that has a slot: its line and
its segment. -/
def position? (t : LineTable) (name : Text) : Option (Nat × Nat) :=
  t.zipIdx.findSome? fun (r, i) =>
    (r.line.clauses.findIdx? (·.statement.declares name)).map fun j => (i, j)

/-- Writes a literal into the first declaration of a name that has a slot. -/
def fill? (v : Vocabulary) (t : LineTable) (name literal : Text) :
    Option LineTable :=
  replaceFirst? (fun r => (r.line.fill? v name literal).map fun l =>
    ⟨l, r.ending⟩) t

/-- Writes a value into the first declaration of a name that has a slot. -/
def setValue (v : Vocabulary) (t : LineTable) (name : Text) (value : Float) :
    Except SheetError LineTable :=
  match t.fill? v name (Decimal.plain value) with
  | some t => .ok t
  | none => .error (.unknownVariable name)

def equations (t : LineTable) : List Equation := t.filterMap (·.line.equation?)

/-- Reading a source loses nothing. -/
theorem source_read (v : Vocabulary) (s : Text) : (read v s).source = s := by
  conv => rhs; rw [← flatMap_text_rows s]
  simp only [read, source, List.flatMap_map, Line.text_read]
  rfl

end LineTable
end Worksheet

import Worksheet.Source.Classification

/-!
# Lines

The mark `';'` cuts a line into segments. A `#`, a quote that is not part of a
mark, or a double quote begins a comment, which runs to the end of the line. A
line is its segments joined by marks, followed by the comment, which is empty or
keeps the character that begins it.
-/

namespace Worksheet

open Text

/-- The mark between the segments of a line. -/
def segmentMark : Text := ['\'', ';', '\'']

/-- Whether a character begins a comment. -/
def beginsComment (c : Char) : Bool := c == '#' || c == '\'' || c == '"'

/-- A line cut at its marks and at its comment. -/
structure Cut where
  first : Text
  others : List Text
  comment : Text
  deriving DecidableEq

/-- Cuts a line. A mark is recognised before a comment. -/
def Cut.ofText : Text → Cut
  | [] => ⟨[], [], []⟩
  | '\'' :: ';' :: '\'' :: s =>
    let rest := Cut.ofText s
    ⟨[], rest.first :: rest.others, rest.comment⟩
  | c :: s =>
    if beginsComment c then ⟨[], [], c :: s⟩
    else
      let rest := Cut.ofText s
      ⟨c :: rest.first, rest.others, rest.comment⟩

/-- The segments joined by marks. -/
def joinSegments (first : Text) (others : List Text) : Text :=
  first ++ others.flatMap (segmentMark ++ ·)

def Cut.text (k : Cut) : Text := joinSegments k.first k.others ++ k.comment

/-- A cut loses nothing. -/
theorem Cut.text_ofText (s : Text) : (Cut.ofText s).text = s := by
  fun_induction Cut.ofText s with
  | case1 => rfl
  | case2 s rest ih => simpa [Cut.text, joinSegments, segmentMark] using ih
  | case3 c s _ h => simp [Cut.text, joinSegments]
  | case4 c s _ h rest ih => simpa [Cut.text, joinSegments] using ih

/-- A segment with what it says. -/
structure Clause where
  text : Text
  statement : Statement
  deriving DecidableEq

/-- A line with what its segments say. -/
structure Line where
  first : Clause
  others : List Clause
  comment : Text
  deriving DecidableEq

namespace Line

def read (v : Vocabulary) (s : Text) : Line :=
  let k := Cut.ofText s
  ⟨⟨k.first, v.classify false k.first⟩,
    k.others.map fun t => ⟨t, v.classify true t⟩, k.comment⟩

def clauses (l : Line) : List Clause := l.first :: l.others

def statements (l : Line) : List Statement := l.clauses.map Clause.statement

/-- The line without its comment. -/
def code (l : Line) : Text :=
  joinSegments l.first.text (l.others.map Clause.text)

def text (l : Line) : Text := l.code ++ l.comment

def hasMark (l : Line) : Bool := !l.others.isEmpty

def hasComment (l : Line) : Bool := !l.comment.isEmpty

/-- The size of the line without its comment. -/
def codeEnd (l : Line) : Nat := l.code.size

/-- The kind of the first statement that says something. -/
def kind (l : Line) : Kind :=
  match l.statements.find? (fun s => s.kind != .blank) with
  | some s => s.kind
  | none => if l.hasComment then .comment else .blank

/-- The place of each literal in the line, for segments that begin at
`start`. -/
def spansFrom (start : Nat) : List Clause → List (Option (Nat × Nat))
  | [] => []
  | c :: cs =>
    (c.statement.slot?.map fun s =>
        (start + s.before.size, start + s.before.size + s.literal.size)) ::
      spansFrom (start + c.text.size + segmentMark.size) cs

def spans (l : Line) : List (Option (Nat × Nat)) := spansFrom 0 l.clauses

/-- Reading a line loses nothing. -/
theorem text_read (v : Vocabulary) (s : Text) : (read v s).text = s := by
  conv => rhs; rw [← Cut.text_ofText s]
  simp [read, text, code, Cut.text, List.map_map, Function.comp_def]

end Line

structure Equation where
  left : Text
  right : Text
  deriving DecidableEq

/-- The equation of a line that is one equation and nothing else but a
comment. -/
def Line.equation? (l : Line) : Option Equation :=
  match l.others, l.first.statement with
  | [], .equation name body => some ⟨name, body⟩
  | _, _ => none

/-- The kind of a text read as one line. -/
def Vocabulary.kindOf (v : Vocabulary) (s : Text) : Kind := (Line.read v s).kind

end Worksheet

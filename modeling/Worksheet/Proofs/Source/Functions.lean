import Worksheet.Proofs.Source.Grammar
import Worksheet.Sheet

/-!
# The table of functions

A vocabulary adds characters of units and names of functions. The names decide
nothing: a call that was found has an opening parenthesis, which is an operator,
so that the text was an expression before any name was looked up. Two
vocabularies with the same characters of units read every line alike, and what
is gathered from lines, written to them or expanded in them is the same.
-/

namespace Worksheet

open Text

namespace Vocabulary

/-! ## Expressions -/

/-- A text that calls a function has an operator. -/
theorem any_isOperator_of_callsFunction {v : Vocabulary} {s : Text}
    (h : v.callsFunction s = true) : s.any isOperator = true := by
  obtain ⟨front, name, gap, rest, rfl, -, -⟩ := exists_of_callsFunction h
  have paren : '(' ∈ front ++ (name ++ (gap ++ '(' :: rest)) := by simp
  exact List.any_eq_true.2 ⟨'(', paren, by decide⟩

/-- The search for a call never decides: operators do. -/
theorem isExpression_eq (v : Vocabulary) (s : Text) :
    v.isExpression s = s.any isOperator := by
  unfold isExpression
  cases calls : v.callsFunction s with
  | false => rw [Bool.or_false]
  | true => rw [any_isOperator_of_callsFunction calls, Bool.true_or]

/-! ## Units and right sides -/

section SameChars

variable {v w : Vocabulary} (same : v.extraUnitChars = w.extraUnitChars)

include same

theorem isUnitChar_congr (c : Char) : v.isUnitChar c = w.isUnitChar c := by
  unfold isUnitChar addsUnitChar
  rw [same]

theorem isUnitStart_congr (c : Char) : v.isUnitStart c = w.isUnitStart c := by
  unfold isUnitStart addsUnitChar
  rw [same]

theorem unitRun_congr (before : Char) (s : Text) :
    v.unitRun before s = w.unitRun before s := by
  induction s generalizing before with
  | nil => rfl
  | cons c s ih =>
    rw [unitRun, unitRun, continuesUnit, continuesUnit, isUnitChar_congr same,
      ih]

theorem unitToken_congr (s : Text) : v.unitToken s = w.unitToken s := by
  cases s with
  | nil => rfl
  | cons c s =>
    rw [unitToken, unitToken, isUnitStart_congr same, unitRun_congr same]

theorem wholeUnit?_congr (s : Text) : v.wholeUnit? s = w.wholeUnit? s := by
  rw [wholeUnit?, wholeUnit?, unitToken_congr same]

theorem input?_congr (body : Text) : v.input? body = w.input? body := by
  unfold input?
  simp only [wholeUnit?_congr same]

theorem literal?_congr (body : Text) : v.literal? body = w.literal? body := by
  unfold literal?
  simp only [wholeUnit?_congr same]

/-- What a right side says is told by units and operators. -/
theorem classifyRight_congr (joined : Bool) (name front right : Text) :
    v.classifyRight joined name front right =
      w.classifyRight joined name front right := by
  unfold classifyRight
  simp only [input?_congr same, literal?_congr same, isExpression_eq]

theorem classify_congr (joined : Bool) (segment : Text) :
    v.classify joined segment = w.classify joined segment := by
  unfold classify
  simp only [classifyRight_congr same]

end SameChars

end Vocabulary

/-! ## Lines and sources -/

section SameLines

variable {v w : Vocabulary} (alike : ∀ s, Line.read v s = Line.read w s)

include alike

theorem variableTable_congr (explicitOnly : Bool) (source : Text) :
    v.variableTable explicitOnly source =
      w.variableTable explicitOnly source := by
  unfold Vocabulary.variableTable Vocabulary.declarations
  simp only [alike]

theorem equations_congr (source : Text) :
    v.equations source = w.equations source := by
  unfold Vocabulary.equations
  simp only [alike]

theorem expand_congr (aliases : List UnitAlias) (source : Text) :
    UnitAlias.expand v aliases source = UnitAlias.expand w aliases source := by
  unfold UnitAlias.expand
  simp only [alike]

/-- A line is filled and then read again, which is all that the vocabulary is
for. -/
theorem setValue_congr (t : LineTable) (name : Text) (value : Float) :
    t.setValue v name value = t.setValue w name value := by
  have filled (l : Line) (literal : Text) :
      l.fill? v name literal = l.fill? w name literal := by
    unfold Line.fill?
    simp only [alike]
  unfold LineTable.setValue LineTable.fill?
  simp only [filled]

theorem assign_congr (source name : Text) (value : Float) :
    Sheet.assign v source name value = Sheet.assign w source name value := by
  have read : LineTable.read v source = LineTable.read w source := by
    unfold LineTable.read
    simp only [alike]
  unfold Sheet.assign
  rw [read, setValue_congr alike]

end SameLines

/-- Vocabularies that differ in their functions only cannot be told apart: lines
are read alike, and so are variables, equations, written values and expanded
aliases the same. A right side is an expression just when it holds an
operator. -/
theorem functions_irrelevant {v w : Vocabulary}
    (same : v.extraUnitChars = w.extraUnitChars) :
    (∀ line, Line.read v line = Line.read w line) ∧
    (∀ explicitOnly source,
      v.variableTable explicitOnly source =
        w.variableTable explicitOnly source) ∧
    (∀ source, v.equations source = w.equations source) ∧
    (∀ (t : LineTable) name value,
      t.setValue v name value = t.setValue w name value) ∧
    (∀ source name value,
      Sheet.assign v source name value = Sheet.assign w source name value) ∧
    (∀ aliases source,
      UnitAlias.expand v aliases source = UnitAlias.expand w aliases source) ∧
    ∀ right, v.isExpression right = w.isExpression right ∧
      (v.isExpression right = true ↔
        ∃ c ∈ right, Vocabulary.isOperator c = true) := by
  have alike (line : Text) : Line.read v line = Line.read w line := by
    unfold Line.read
    simp only [Vocabulary.classify_congr same]
  refine ⟨alike, variableTable_congr alike, equations_congr alike,
    setValue_congr alike, assign_congr alike, expand_congr alike, ?_⟩
  intro right
  rw [Vocabulary.isExpression_eq, Vocabulary.isExpression_eq, List.any_eq_true]
  exact ⟨rfl, Iff.rfl⟩

/-- A function that one vocabulary knows and the other does not. -/
theorem functions_irrelevant_sample :
    (⟨['€'], ["mystery".toList]⟩ : Vocabulary).knowsFunction "mystery".toList =
      true ∧
    (⟨['€'], []⟩ : Vocabulary).knowsFunction "mystery".toList = false ∧
    Line.read ⟨['€'], ["mystery".toList]⟩ "y = mystery (x) # 3 €".toList =
      Line.read ⟨['€'], []⟩ "y = mystery (x) # 3 €".toList :=
  ⟨by decide, by decide, (functions_irrelevant rfl).1 _⟩

end Worksheet

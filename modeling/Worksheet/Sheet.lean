import Worksheet.Config.Basic
import Worksheet.Result.Extraction
import Worksheet.Source.LineTable
import Worksheet.Source.Variables

/-!
# Sheets

A sheet holds a source, the renderer that calculates it, and the last output.
Loading a source drops the output; writing a value changes the source alone;
calculating hands the source, with its unit aliases expanded, to the renderer
and keeps what it gives. Results are read from the last output, one for each
name that an equation of the source gives.
-/

namespace Worksheet

open Text

/-- A renderer gives an output or a message of failure for a source. Its answer
may depend on the sources it was given before, oldest first. -/
abbrev Renderer := List Text → Text → Except Text Text

/-- A renderer with the sources that it was given. -/
structure Engine where
  renderer : Renderer
  requests : List Text

/-- A loaded source with the output of its last calculation. -/
structure Page where
  source : Text
  output : Option Text
  deriving DecidableEq

/-- How far a sheet has come. -/
inductive Stage where
  | empty
  | loaded
  | rendered
  deriving DecidableEq, Repr

def Stage.word : Stage → Text
  | .empty => "Empty".toList
  | .loaded => "Loaded".toList
  | .rendered => "Rendered".toList

/-- A calculation sheet. -/
structure Sheet where
  config : SheetConfig
  page : Option Page
  engine : Option Engine
  /-- How often a renderer was called. -/
  renders : Nat

/-- What became of several assignments. -/
structure Assigned where
  /-- The names that were written. -/
  applied : List Text
  /-- Why the others were not. -/
  failures : List SheetError
  deriving DecidableEq

namespace Assigned

def isComplete (a : Assigned) : Bool := a.failures.isEmpty

/-- The names without a declaration. -/
def missing (a : Assigned) : List Text :=
  a.failures.filterMap fun
    | .unknownVariable name => some name
    | _ => none

end Assigned

/-- A result with its value, no number when there is none, and its unit, empty
when there is none. -/
structure Outcome where
  name : Text
  value : Float
  unit : Text
  deriving DecidableEq

def Outcome.hasValue (r : Outcome) : Bool := !r.value.isNaN

namespace Sheet

def new (config : SheetConfig) : Sheet := ⟨config, none, none, 0⟩

def vocabulary (s : Sheet) : Vocabulary := s.config.vocabulary

/-- The source, empty before one is loaded. -/
def source (s : Sheet) : Text := s.page.elim [] Page.source

def output? (s : Sheet) : Option Text := s.page.bind Page.output

/-- How far the sheet has come. -/
def stage (s : Sheet) : Stage :=
  match s.page with
  | none => .empty
  | some ⟨_, none⟩ => .loaded
  | some ⟨_, some _⟩ => .rendered

def setRenderer (s : Sheet) (r : Renderer) : Sheet :=
  { s with engine := some ⟨r, []⟩ }

/-- Loads a source and drops the last output. -/
def load (s : Sheet) (source : Text) : Sheet :=
  { s with page := some ⟨source, none⟩ }

/-- The source with its unit aliases expanded. -/
def preprocessed (s : Sheet) : Text :=
  UnitAlias.expand s.vocabulary s.config.aliases s.source

def variableTable (s : Sheet) (explicitOnly : Bool) : VariableTable :=
  s.vocabulary.variableTable explicitOnly s.source

/-! ## Writing values -/

/-- The source with a value in the first declaration of a name. -/
def assign (v : Vocabulary) (source name : Text) (value : Float) :
    Except SheetError Text :=
  if value.isFinite then
    match (LineTable.read v source).setValue v name value with
    | .ok t => .ok t.source
    | .error e => .error e
  else .error (.nonFinite name value)

def setVariable (s : Sheet) (name : Text) (value : Float) :
    Except SheetError Sheet :=
  match s.page with
  | none => .error .noSource
  | some page =>
    match assign s.vocabulary page.source name value with
    | .ok source => .ok { s with page := some { page with source } }
    | .error e => .error e

/-- Writes values one after another and goes on past the assignments that
fail. -/
def assignAll (v : Vocabulary) (source : Text) :
    List (Text × Float) → Text × Assigned
  | [] => (source, ⟨[], []⟩)
  | (name, value) :: rest =>
    match assign v source name value with
    | .ok source =>
      let (last, a) := assignAll v source rest
      (last, { a with applied := name :: a.applied })
    | .error e =>
      let (last, a) := assignAll v source rest
      (last, { a with failures := e :: a.failures })

/-- Writes values one after another; only a sheet without source refuses as a
whole. -/
def setVariables (s : Sheet) (values : List (Text × Float)) :
    Except SheetError (Sheet × Assigned) :=
  match s.page with
  | none => .error .noSource
  | some page =>
    let (source, assigned) := assignAll s.vocabulary page.source values
    .ok ({ s with page := some { page with source } }, assigned)

/-! ## Calculating -/

/-- Hands the source to the renderer. A failure of the renderer counts as a call
and changes nothing else; the earlier faults do not reach it. -/
def calculate (s : Sheet) : Sheet × Except SheetError Text :=
  match s.engine with
  | none => (s, .error .noRenderer)
  | some engine =>
    match s.page with
    | none => (s, .error .noSource)
    | some page =>
      if isAllBlank page.source then (s, .error .noSource)
      else
        let request := s.preprocessed
        let called :=
          { s with engine := some
                     { engine with requests := engine.requests ++ [request] },
                   renders := s.renders + 1 }
        match engine.renderer engine.requests request with
        | .ok output =>
          ({ called with page := some { page with output := some output } },
           .ok output)
        | .error message => (called, .error (.renderFailed message))

/-! ## Results -/

def equations (s : Sheet) : List Equation := s.vocabulary.equations s.source

/-- Keeps the first of equal texts. -/
def distinct (names : List Text) : List Text :=
  names.foldl (fun seen n => if seen.contains n then seen else seen ++ [n]) []

/-- The names that equations give, in the order of first appearance. -/
def resultNames (s : Sheet) : List Text :=
  distinct (s.equations.map Equation.left)

def blocks (s : Sheet) : List ResultBlock := s.output?.elim [] resultBlocks

/-- What `f` extracts from the block of each result name. -/
def extractEach {α : Type} (s : Sheet) (f : ResultBlock → Except Miss α) :
    List (Except Miss α) :=
  let blocks := s.blocks
  s.resultNames.map fun name =>
    match findBlock? blocks name with
    | some b => f b
    | none => .error ⟨name, .noBlock⟩

def values (s : Sheet) : List (Except Miss Float) :=
  s.extractEach ResultBlock.value

def units (s : Sheet) : List (Except Miss Text) :=
  s.extractEach (ResultBlock.unit s.vocabulary)

/-- What a success holds, or else `default`. -/
def valueOr {α : Type} (default : α) : Except Miss α → α
  | .ok a => a
  | .error _ => default

def noNumber : Float := 0 / 0

def plainValues (s : Sheet) : List Float := s.values.map (valueOr noNumber)

def plainUnits (s : Sheet) : List Text := s.units.map (valueOr [])

def outcomes (s : Sheet) : List Outcome :=
  let blocks := s.blocks
  s.resultNames.map fun name =>
    match findBlock? blocks name with
    | some b =>
      ⟨name, valueOr noNumber b.value, valueOr [] (b.unit s.vocabulary)⟩
    | none => ⟨name, noNumber, []⟩

/-! ## Summary -/

/-- A line about the sheet: its stage, the sizes of source and output, whether
it has a renderer, and how often one was called. -/
def summary (s : Sheet) : Text :=
  let outputSize := s.output?.elim "None".toList fun o =>
    "Some(".toList ++ Decimal.digits o.size ++ ")".toList
  "Sheet \x7b state: ".toList ++ s.stage.word ++
    ", source_len: ".toList ++ Decimal.digits s.source.size ++
    ", rendered_len: ".toList ++ outputSize ++
    ", has_renderer: ".toList ++
    (if s.engine.isSome then "true".toList else "false".toList) ++
    ", render_count: ".toList ++ Decimal.digits s.renders ++ " \x7d".toList

end Sheet
end Worksheet

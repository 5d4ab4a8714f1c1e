import Worksheet.Search.Memo
import Worksheet.Search.Problem
import Worksheet.Search.Tracker
import Worksheet.Search.Trend
import Worksheet.Sheet

/-!
# Evaluators

An evaluator uses a sheet as the function that a search minimises. For the
values of a problem's design variables it writes them into the sheet, calculates
it, and combines the values of the objectives into a fitness; an objective
without a finite value costs the penalty. An evaluation whose key is in the memo
is answered from there. Another problem clears the memo and the history, and
both keep the newest evaluations within the capacity.
-/

namespace Worksheet

structure Evaluation where
  fitness : Float
  objectives : List Float
  /-- Whether the answer comes from the memo. -/
  cached : Bool
  iteration : Nat
  /-- The design variables without a declaration; none for an answer from the
  memo. -/
  missing : List Text
  deriving DecidableEq

def Evaluation.ofEntry (e : Entry) : Evaluation :=
  ⟨e.fitness, e.objectives, true, e.iteration, []⟩

/-- A sheet with what was found out about a problem. -/
structure Evaluator where
  sheet : Sheet
  config : SearchConfig
  memo : Memo
  tracker : Tracker
  /-- The evaluations of the problem at hand, oldest first. -/
  history : List Entry
  /-- The number of evaluations of the problem at hand. -/
  iteration : Nat

namespace Evaluator

/-- An evaluator for a sheet, with a valid configuration. -/
def new (sheet : Sheet) (config : SearchConfig) : Except SheetError Evaluator :=
  match config.validate with
  | .ok config => .ok ⟨sheet, config, .empty config.capacity, .start, [], 0⟩
  | .error e => .error e

/-- Whether a problem is another one than the one at hand. -/
def differs (e : Evaluator) (p : Problem) : Bool :=
  e.tracker.differs p.signature

/-- Takes a problem; another one than the one at hand clears memo and
history. -/
def sync (e : Evaluator) (p : Problem) : Evaluator :=
  if e.differs p then
    { e with tracker := e.tracker.update p.signature, memo := e.memo.clear,
             history := [], iteration := 0 }
  else e

/-- The finite value of a name among results. -/
def finiteValue? (results : List Outcome) (name : Text) : Option Float :=
  match results.find? (·.name == name) with
  | some r => if r.value.isFinite then some r.value else none
  | none => none

/-- A value with the mode and the target that it is scored under. -/
structure Scored where
  value : Float
  mode : Text
  target : Float

/-- The values that were found for objectives, one after another without the
gaps of those that were not, each with the goal and the target of its
objective. -/
def scored (p : Problem) (found : List (Option Float)) : List Scored :=
  found.zipIdx.filterMap fun (x, i) => x.map fun value =>
    ⟨value, (p.goal i).name, p.target i⟩

/-- The fitness of the values found for objectives, and the penalty for each
that was not found. -/
def fitnessOf (p : Problem) (penalty : Float) (found : List (Option Float)) :
    Float :=
  let scored := scored p found
  fitness (scored.map Scored.value) (scored.map Scored.mode)
    (scored.map Scored.target) +
    penalty * (found.filter Option.isNone).length.toFloat

/-- The newest evaluations within a capacity. -/
def withinCapacity (capacity : Option Nat) (history : List Entry) :
    List Entry :=
  match capacity with
  | some c => history.drop (history.length - c)
  | none => history

/-- Keeps an entry in memo and history as the next evaluation. -/
def record (e : Evaluator) (key : Text) (entry : Entry) : Evaluator :=
  { e with memo := e.memo.insert key entry,
           history := withinCapacity e.config.capacity (e.history ++ [entry]),
           iteration := entry.iteration }

/-- Writes the values, calculates, and records the evaluation under a key. -/
def evaluateFresh (e : Evaluator) (p : Problem) (values : List Float)
    (key : Text) :
    Evaluator × Except SheetError Evaluation :=
  match e.sheet.setVariables (p.designVariables.zip values) with
  | .error err => (e, .error err)
  | .ok (sheet, assigned) =>
    match sheet.calculate with
    | (sheet, .error err) => ({ e with sheet }, .error err)
    | (sheet, .ok _) =>
      let results := sheet.outcomes
      let found := p.objectives.map (finiteValue? results)
      let penalty := e.config.penalty
      let fitness := fitnessOf p penalty found
      let objectives := found.map (·.getD penalty)
      let iteration := e.iteration + 1
      (record { e with sheet } key ⟨values, fitness, objectives, iteration⟩,
        .ok ⟨fitness, objectives, false, iteration, assigned.missing⟩)

def evaluate (e : Evaluator) (p : Problem) (values : List Float) :
    Evaluator × Except SheetError Evaluation :=
  if values.length = p.designVariables.length then
    let e := e.sync p
    let key := p.key values
    let counted := { e with memo := e.memo.count key }
    match e.memo.peek? key with
    | some entry => (counted, .ok (.ofEntry entry))
    | none => counted.evaluateFresh p values key
  else
    (e, .error (.invalidConfig
      (.valueCount p.designVariables.length values.length)))

/-- The first of the evaluations with the least fitness. -/
def best? (e : Evaluator) : Option Entry :=
  e.history.foldl (fun best x =>
    match best with
    | none => some x
    | some b =>
      if Decimal.rank x.fitness < Decimal.rank b.fitness then some x
      else some b) none

def trend (e : Evaluator) : Trend :=
  .ofFitness e.config (e.history.map Entry.fitness)

end Evaluator
end Worksheet

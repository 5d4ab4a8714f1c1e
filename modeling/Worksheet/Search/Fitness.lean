import Worksheet.Text.LowerCase
import Worksheet.Text.Trim

/-!
# Fitness

Each objective has a goal: to be small, to be large, or to be near its target.
Its value contributes to the fitness accordingly, and the fitness is the sum of
the contributions from left to right. The sum starts at minus zero, the neutral
element of addition.
-/

namespace Worksheet

open Text

/-- What an objective is meant to be. -/
inductive Goal where
  | minimize
  | maximize
  | target
  deriving DecidableEq, Repr

/-- A mode without margins, in lower case. -/
def normalizeMode (mode : Text) : Text := lowerCase (trim mode)

namespace Goal

/-- The goal that a mode names; a mode of no known name means to minimize. -/
def ofMode (mode : Text) : Goal :=
  let m := normalizeMode mode
  if m = "maximize".toList ∨ m = "max".toList then maximize
  else if m = "target".toList then target
  else minimize

def name : Goal → Text
  | minimize => "minimize".toList
  | maximize => "maximize".toList
  | target => "target".toList

/-- What a value contributes to the fitness. -/
def contribution (g : Goal) (value aim : Float) : Float :=
  match g with
  | minimize => value
  | maximize => -value
  | target => (value - aim).abs

end Goal

/-- The goal of the objective at a place; past the modes it is to minimize. -/
def goalAt (modes : List Text) (i : Nat) : Goal :=
  (modes[i]?.map Goal.ofMode).getD .minimize

/-- The target of the objective at a place; past the targets it is zero. -/
def targetAt (targets : List Float) (i : Nat) : Float := targets[i]?.getD 0

/-- The sum from left to right. -/
def sum (xs : List Float) : Float := xs.foldl (· + ·) (-0.0)

/-- The contribution of the objective at a place. -/
def contributionAt (modes : List Text) (targets : List Float) (i : Nat)
    (value : Float) : Float :=
  (goalAt modes i).contribution value (targetAt targets i)

/-- The fitness of values, each with the mode and the target at its place. -/
def fitness (values : List Float) (modes : List Text) (targets : List Float) :
    Float :=
  sum (values.zipIdx.map fun (x, i) => contributionAt modes targets i x)

end Worksheet

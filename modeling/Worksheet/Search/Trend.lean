import Worksheet.Config.Basic
import Worksheet.Decimal.Order

/-!
# Trends

The trend of a search compares the first and the last fitness of a window of
recent evaluations. A search is stagnant when all evaluations of the stagnation
window are within the tolerance of the last one. With fewer than two evaluations
it is only starting.
-/

namespace Worksheet

/-- How a search goes. -/
inductive Progress where
  | starting
  | improving
  | worsening
  | stagnant
  | fluctuating
  deriving DecidableEq, Repr

def Progress.word : Progress → Text
  | starting => "starting".toList
  | improving => "improving".toList
  | worsening => "worsening".toList
  | stagnant => "stagnant".toList
  | fluctuating => "fluctuating".toList

/-- The trend of a search. -/
structure Trend where
  progress : Progress
  evaluations : Nat
  /-- By how much the fitness fell over the window. -/
  improvement : Float
  /-- The same as a percentage of the first fitness, zero when that is zero. -/
  rate : Float
  stagnant : Bool
  /-- The least fitness of all. -/
  best : Option Float
  deriving DecidableEq

namespace Trend

/-- The last `window` elements. -/
def recent (window : Nat) (xs : List Float) : List Float :=
  xs.drop (xs.length - window)

/-- How a search goes, by whether it is stagnant and by its improvement. -/
def progressOf (stagnant : Bool) (improvement : Float) : Progress :=
  if stagnant then .stagnant
  else if improvement > 0 then .improving
  else if improvement < 0 then .worsening
  else .fluctuating

/-- The trend of the fitness of evaluations, oldest first. A valid window is not
empty. -/
def ofFitness (c : SearchConfig) (xs : List Float) : Trend :=
  let best := Decimal.least? xs
  if xs.length < 2 then ⟨.starting, xs.length, 0, 0, false, best⟩
  else
    let window := recent c.trendWindow xs
    let first := window.headD 0
    let last := window.getLastD 0
    let improvement := first - last
    let rate := if first != 0 then improvement / first.abs * 100 else 0
    let stagnant :=
      (recent c.stagnationWindow xs).all fun x => (x - last).abs ≤ c.tolerance
    ⟨progressOf stagnant improvement, xs.length, improvement, rate, stagnant,
      best⟩

def text (t : Trend) : Text :=
  let head :=
    t.progress.word ++ "（已評估 ".toList ++ Decimal.digits t.evaluations ++
      " 筆）".toList
  if t.progress = .starting then head
  else
    head ++ "：近期改善 ".toList ++ Decimal.scientific 6 t.improvement ++
      "（".toList ++
      Decimal.fixed 2 t.rate ++ "%）".toList ++
      (if t.stagnant then "，已停滯".toList else []) ++
      t.best.elim [] fun x => "，最佳適應值 ".toList ++ Decimal.plain x

end Trend
end Worksheet

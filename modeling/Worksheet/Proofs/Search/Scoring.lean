import Worksheet.Proofs.Search.Capacity
import Worksheet.Proofs.Search.Reported

/-!
# Scores of objectives

The values that were found for objectives are scored one after another, without
the gaps of the objectives that have none, so that a value may stand at another
place than its objective. Its goal and its target go along with it, the goal by
its name. Every value is therefore scored under the goal and the target of its
own objective, whatever objectives have no value, and each of these costs the
penalty.
-/

namespace Worksheet

open Text

/-! ## Goals and targets -/

theorem Goal.ofMode_name (g : Goal) : Goal.ofMode g.name = g := by
  cases g <;> decide +kernel

namespace Problem

variable {p : Problem} {i : Nat}

theorem goal_of_length_le (h : p.modes.length ≤ i) : p.goal i = .minimize := by
  rw [goal, goalAt, List.getElem?_eq_none h]
  rfl

theorem target_of_length_le (h : p.targets.length ≤ i) : p.target i = 0 := by
  rw [target, targetAt, List.getElem?_eq_none h]
  rfl

/-- What the objectives with a result contribute to the fitness, in their
order. -/
def contributions (p : Problem) (result? : Text → Option Float) : List Float :=
  p.objectives.zipIdx.filterMap fun (name, i) =>
    (result? name).map fun value => (p.goal i).contribution value (p.target i)

end Problem

/-! ## Results with a finite value -/

namespace Sheet

/-- The value that is extracted for a name, if an equation gives the name and
the value is finite. -/
def finiteResult? (s : Sheet) (name : Text) : Option Float :=
  if s.resultNames.contains name then
    ((findBlock? s.blocks name).bind fun b => b.value.toOption).filter
      Float.isFinite
  else none

/-- The outcome of a name. -/
def outcome (s : Sheet) (name : Text) : Outcome :=
  match findBlock? s.blocks name with
  | some b => ⟨name, valueOr noNumber b.value, valueOr [] (b.unit s.vocabulary)⟩
  | none => ⟨name, noNumber, []⟩

theorem name_outcome (s : Sheet) (name : Text) :
    (s.outcome name).name = name := by
  rw [outcome]
  split <;> rfl

theorem outcomes_eq_map (s : Sheet) :
    s.outcomes = s.resultNames.map s.outcome := rfl

/-- A value that could not be extracted counts as none, and no number is not
finite. -/
theorem value_outcome (s : Sheet) (name : Text) :
    (if (s.outcome name).value.isFinite then some
      (s.outcome name).value else none) =
      ((findBlock? s.blocks name).bind fun b => b.value.toOption).filter
        Float.isFinite := by
  have infinite : noNumber.isFinite = false := by decide +kernel
  rw [outcome]
  cases findBlock? s.blocks name with
  | none => simp [infinite]
  | some b =>
    cases h : b.value with
    | error m => simp [valueOr, Except.toOption, h, infinite]
    | ok x => simp [valueOr, Except.toOption, h, Option.filter]

/-- The finite value among the outcomes is the one that is extracted. -/
theorem finiteValue?_outcomes (s : Sheet) (name : Text) :
    Evaluator.finiteValue? s.outcomes name = s.finiteResult? name := by
  rw [Evaluator.finiteValue?, outcomes_eq_map, List.find?_map, finiteResult?]
  have named :
      ((fun r : Outcome => r.name == name) ∘ s.outcome) = (· == name) := by
    funext other
    rw [Function.comp, name_outcome]
  rw [named]
  by_cases mem : s.resultNames.contains name = true
  · have some : (s.resultNames.find? (· == name)).isSome = true :=
      List.find?_isSome.2 ⟨name, List.contains_iff_mem.1 mem,
        beq_self_eq_true name⟩
    obtain ⟨other, found⟩ := Option.isSome_iff_exists.1 some
    have same := List.find?_some found
    obtain rfl : other = name := beq_iff_eq.1 same
    rw [found, if_pos mem, ← value_outcome]
    rfl
  · have none : s.resultNames.find? (· == name) = none := by
      rw [List.find?_eq_none]
      intro other there same
      rw [beq_iff_eq.1 same] at there
      exact mem (List.contains_iff_mem.2 there)
    rw [none, if_neg mem]
    rfl

theorem isFinite_of_finiteResult? {s : Sheet} {name : Text} {x : Float}
    (h : s.finiteResult? name = some x) : x.isFinite = true := by
  rw [finiteResult?] at h
  split at h
  · exact (Option.filter_eq_some_iff.1 h).2
  · cases h

end Sheet

/-! ## Fitness -/

/-- Values with their modes and targets at the same places are scored each under
its own. -/
theorem fitness_map_scored (scores : List Evaluator.Scored) :
    fitness (scores.map (·.value)) (scores.map (·.mode))
      (scores.map (·.target)) =
      sum (scores.map fun s =>
        (Goal.ofMode s.mode).contribution s.value s.target) := by
  rw [fitness]
  congr 1
  apply List.ext_getElem (by simp)
  intro i lt lt'
  have there : i < scores.length := by simpa using lt'
  simp [contributionAt, goalAt, targetAt, there]

namespace Evaluator

variable {config : SearchConfig} {e e' : Evaluator} {p : Problem}
  {values : List Float} {answer : Evaluation}

/-- The gaps do not shift a value to the goal or the target of another
objective. -/
theorem fitnessOf_map (p : Problem) (penalty : Float)
    (result? : Text → Option Float) :
    fitnessOf p penalty (p.objectives.map result?) =
      sum (p.contributions result?) +
        penalty * (p.objectives.filter fun name =>
          (result? name).isNone).length.toFloat := by
  dsimp only [fitnessOf]
  rw [fitness_map_scored, List.filter_map, List.length_map]
  -- A goal is handed on by its name, and read again it is the same goal.
  congr 2
  rw [scored, List.map_filterMap, List.zipIdx_map, List.filterMap_map,
    Problem.contributions]
  congr 1
  funext ⟨name, i⟩
  simp only [Function.comp_def, Prod.map, id, Option.map_map, Goal.ofMode_name]

theorem ReachedBy.penalty_finite {actions : List Action}
    (h : ReachedBy config actions e) :
    config.penalty.isFinite = true := by
  obtain ⟨sheet, start, created, -⟩ := h
  have valid : config.fault? = none := by
    by_contra faulty
    obtain ⟨fault, hfault⟩ := Option.ne_none_iff_exists'.1 faulty
    rw [new, SearchConfig.validate, hfault] at created
    cases created
  exact (SearchConfig.fault?_eq_none_iff.1 valid).1

/-- An evaluation that is not answered from the memo gives a finite value for
each objective: the one that is extracted for it, or else the penalty. Its
fitness is the sum, from the front, of what the extracted values contribute
under the goals and the targets of their own objectives, and of the penalty for
each of the others. -/
theorem evaluate_scores_objectives {actions : List Action}
    (reached : ReachedBy config actions e)
    (h : e.evaluate p values = (e', .ok answer))
    (fresh : answer.cached = false) :
    answer.objectives = p.objectives.map
        (fun name => (e'.sheet.finiteResult? name).getD config.penalty) ∧
      (∀ y ∈ answer.objectives, y.isFinite = true) ∧
      answer.fitness =
        (p.contributions e'.sheet.finiteResult?).foldl (· + ·) (-0.0) +
          config.penalty *
            (p.objectives.filter fun name =>
              (e'.sheet.finiteResult? name).isNone).length.toFloat ∧
      ∀ i, (p.modes.length ≤ i → p.goal i = .minimize) ∧
        (p.targets.length ≤ i → p.target i = 0) := by
  obtain ⟨written, assigned, output, recorded⟩ := recorded_of_fresh h fresh
  have config_eq : e.config = config := reached.lockStep.config_eq
  have results : finiteValue? e'.sheet.outcomes = e'.sheet.finiteResult? := by
    funext name
    exact e'.sheet.finiteValue?_outcomes name
  have objectives : answer.objectives = p.objectives.map
      (fun name => (e'.sheet.finiteResult? name).getD config.penalty) := by
    rw [recorded.objectives, results, config_eq, List.map_map]
    rfl
  refine ⟨objectives, ?_, ?_, ?_⟩
  · rw [objectives, List.forall_mem_map]
    intro name _
    cases found : e'.sheet.finiteResult? name with
    | none => exact reached.penalty_finite
    | some x => exact Sheet.isFinite_of_finiteResult? found
  · rw [recorded.fitness, results, config_eq, fitnessOf_map]
    rfl
  · intro i
    exact ⟨Problem.goal_of_length_le, Problem.target_of_length_le⟩

/-- A problem whose second objective no equation of the sample gives, with a
target for the third. -/
def gappedProblem : Problem :=
  ⟨["L".toList], ["A".toList, "X".toList, "B".toList],
    ["min".toList, "max".toList, " Target".toList], [0, 0, 7]⟩

/-- An evaluator with a penalty of a thousand, over a sheet with the results `3`
and `10`. -/
def gappedSample : Evaluator :=
  ⟨((Sheet.new SheetConfig.standard.withoutAliases).load
      "L = ?\x7b5\x7d\nA = L+0\nB = L*2".toList).setRenderer
    (fun _ _ => .ok "A = 3\nB = 10".toList), ⟨1000, 1, 2, 2, none⟩, .empty none,
    .start, [], 0⟩

/-- Behind the gap, `10` is scored by its distance from `7`. -/
theorem evaluate_scores_objectives_sample :
    ReachedBy ⟨1000, 1, 2, 2, none⟩ [] gappedSample ∧
      ∃ e', gappedSample.evaluate gappedProblem [2] =
        (e', .ok ⟨1006, [3, 1000, 10], false, 1, []⟩) ∧
        ([3, 1000, 10] : List Float) = gappedProblem.objectives.map
          (fun name => (e'.sheet.finiteResult? name).getD 1000) ∧
        1006 =
          (gappedProblem.contributions e'.sheet.finiteResult?).foldl
            (· + ·) (-0.0) +
          1000 * (gappedProblem.objectives.filter
            fun name => (e'.sheet.finiteResult? name).isNone).length.toFloat := by
  have reached : ReachedBy ⟨1000, 1, 2, 2, none⟩ [] gappedSample := by
    refine ⟨gappedSample.sheet, gappedSample, new_of_validate _ ?_, rfl⟩
    decide +kernel
  have answered : (gappedSample.evaluate gappedProblem [2]).2 =
      .ok ⟨1006, [3, 1000, 10], false, 1, []⟩ := by
    decide +kernel
  have evaluated : gappedSample.evaluate gappedProblem [2] =
      ((gappedSample.evaluate gappedProblem [2]).1,
       .ok ⟨1006, [3, 1000, 10], false, 1, []⟩) :=
    Prod.ext rfl answered
  obtain ⟨objectives, -, fitness, -⟩ :=
    evaluate_scores_objectives reached evaluated rfl
  exact ⟨reached, _, evaluated, objectives, fitness⟩

end Evaluator
end Worksheet

import Mathlib.Data.List.DropRight
import Mathlib.Tactic.Common
import Worksheet.Proofs.Run
import Worksheet.Proofs.Search.LockStep

/-!
# A capacity that is large enough

An evaluator with a capacity drops the oldest evaluations from its history and
its memo. When the capacity covers both windows of the trend, and no values come
twice, nobody can tell: side by side with an evaluator that drops nothing it
gives the same answers, and its trend the same verdicts.
-/

namespace Worksheet

/-! ## Trends of recent evaluations -/

/-- What a trend tells of the recent evaluations. -/
structure Verdict where
  progress : Progress
  improvement : Float
  rate : Float
  stagnant : Bool
  deriving DecidableEq

namespace Trend

def verdict (t : Trend) : Verdict :=
  ⟨t.progress, t.improvement, t.rate, t.stagnant⟩

/-- A window sees no more than the newest values. -/
theorem recent_rtake {window c : Nat} (h : window ≤ c) (xs : List Float) :
    recent window (xs.rtake c) = recent window xs :=
  Memo.rtake_rtake_of_le h xs

/-- The newest values give the verdict of all when they fill both windows. -/
theorem verdict_rtake {config : SearchConfig} {c : Nat} (two : 2 ≤ c)
    (trend : config.trendWindow ≤ c) (stagnation : config.stagnationWindow ≤ c)
    (xs : List Float) :
    (ofFitness { config with capacity := some c } (xs.rtake c)).verdict =
      (ofFitness config xs).verdict := by
  have short : (xs.rtake c).length < 2 ↔ xs.length < 2 := by
    rw [List.rtake, List.length_drop]
    omega
  unfold ofFitness
  by_cases few : xs.length < 2
  · simp only [if_pos few, if_pos (short.2 few), verdict]
  · simp only [if_neg few, if_neg (mt short.1 few), recent_rtake trend,
      recent_rtake stagnation, verdict]

end Trend

/-! ## Valid configurations -/

namespace SearchConfig

theorem fault?_eq_none_iff {config : SearchConfig} :
    config.fault? = none ↔ config.penalty.isFinite = true ∧
      2 ≤ config.trendWindow ∧
      2 ≤ config.stagnationWindow ∧ config.capacity ≠ some 0 := by
  unfold fault?
  split
  · next infinite =>
    rw [Bool.not_eq_true'] at infinite
    simp [infinite]
  next finite =>
  split
  · next short =>
    constructor
    · intro h
      cases h
    · rintro ⟨-, trend, stagnation, -⟩
      omega
  next long =>
  split
  · next zero => simp [zero]
  · next positive =>
    rw [not_or, Nat.not_lt, Nat.not_lt] at long
    simpa [long, positive] using finite

theorem validate_eq_ok_iff {config : SearchConfig} :
    config.validate = .ok config ↔ config.fault? = none := by
  unfold validate
  cases config.fault? <;> simp

/-- A configuration stays valid without its capacity. -/
theorem validate_unbounded {config : SearchConfig}
    (valid : config.validate = .ok config) :
    validate { config with capacity := none } =
      .ok { config with capacity := none } := by
  obtain ⟨penalty, trend, stagnation, -⟩ :=
    fault?_eq_none_iff.1 (validate_eq_ok_iff.1 valid)
  exact validate_eq_ok_iff.2
    (fault?_eq_none_iff.2 ⟨penalty, trend, stagnation, by simp⟩)

end SearchConfig

namespace Evaluator

variable {config : SearchConfig} {c : Nat} {e : Evaluator} {p : Problem}
  {values : List Float}

/-! ## An evaluator with its history cut -/

/-- An evaluator with a capacity, the newest evaluations within it, and some
memo. -/
def bounded (c : Nat) (memo : Memo) (e : Evaluator) : Evaluator :=
  { e with config := { e.config with capacity := some c },
           history := e.history.rtake c, memo }

theorem trend_bounded (two : 2 ≤ c) (trend : e.config.trendWindow ≤ c)
    (stagnation : e.config.stagnationWindow ≤ c) (memo : Memo) :
    (e.bounded c memo).trend.verdict = e.trend.verdict := by
  have cut : (e.history.rtake c).map Entry.fitness =
      (e.history.map Entry.fitness).rtake c :=
    Memo.map_rtake Entry.fitness c e.history
  rw [Evaluator.trend, bounded, cut]
  exact Trend.verdict_rtake two trend stagnation _

theorem sync_bounded (memo : Memo) (p : Problem) :
    ∃ memo', (e.bounded c memo).sync p = (e.sync p).bounded c memo' := by
  have same : (e.bounded c memo).differs p = e.differs p := rfl
  unfold sync
  rw [same]
  split
  · exact ⟨memo.clear, by rw [bounded, bounded, List.rtake_nil]⟩
  · exact ⟨memo, rfl⟩

/-- Cutting the history before and after a new evaluation is cutting it
after. -/
theorem withinCapacity_rtake (positive : c ≠ 0) (history : List Entry)
    (entry : Entry) :
    withinCapacity (some c) (history.rtake c ++ [entry]) =
      (history ++ [entry]).rtake c := by
  obtain ⟨c, rfl⟩ := Nat.exists_eq_succ_of_ne_zero positive
  show (history.rtake (c + 1) ++ [entry]).rtake (c + 1) = _
  rw [List.rtake_concat_succ, List.rtake_concat_succ,
    Memo.rtake_rtake_of_le (Nat.le_succ c)]

/-- An evaluation that looks at the sheet does not look at the history. -/
theorem evaluateFresh_bounded (unbounded : e.config.capacity = none)
    (positive : c ≠ 0) (memo : Memo) (p : Problem) (values : List Float)
    (key : Text) :
    ∃ memo', (e.bounded c memo).evaluateFresh p values key =
      ((e.evaluateFresh p values key).1.bounded c memo',
       (e.evaluateFresh p values key).2) := by
  have sheet : (e.bounded c memo).sheet = e.sheet := rfl
  unfold evaluateFresh
  rw [sheet]
  cases e.sheet.setVariables (p.designVariables.zip values) with
  | error err => exact ⟨memo, rfl⟩
  | ok written =>
    obtain ⟨sheet, assigned⟩ := written
    dsimp only
    generalize sheet.calculate = calculated
    obtain ⟨sheet, output⟩ := calculated
    cases output with
    | error err => exact ⟨memo, rfl⟩
    | ok output =>
      -- The entry is the same, and it is pushed before the histories are cut.
      simp only [record, bounded, unbounded, withinCapacity_rtake positive]
      exact ⟨_, rfl⟩

theorem evaluate_bounded (unbounded : e.config.capacity = none)
    (positive : c ≠ 0) {memo : Memo}
    (length : values.length = p.designVariables.length)
    (peek : (e.sync p).memo.peek? (p.key values) = none)
    (peek' : ((e.bounded c memo).sync p).memo.peek? (p.key values) = none) :
    ∃ memo', (e.bounded c memo).evaluate p values =
      ((e.evaluate p values).1.bounded c memo', (e.evaluate p values).2) := by
  obtain ⟨memo₁, synced⟩ := sync_bounded (c := c) (e := e) memo p
  rw [evaluate_of_peek?_none length peek, evaluate_of_peek?_none length peek',
    synced]
  apply evaluateFresh_bounded (e := (e.sync p).missed) _ positive
  rw [missed, config_sync]
  exact unbounded

/-! ## Two runs -/

/-- Values that print otherwise than those of all evaluations kept are not found
in the memo. -/
theorem LockStep.peek?_of_fresh (h : LockStep config e)
    (fresh : ∀ entry ∈ e.history, ¬Problem.PrintAlike entry.values values) :
    (e.sync p).memo.peek? (p.key values) = none := by
  cases peek : (e.sync p).memo.peek? (p.key values) with
  | none => rfl
  | some entry =>
    have current := current_of_peek? peek
    rw [sync_of_current current, h.peek?_eq_some_iff current] at peek
    exact absurd peek.2 (fresh entry peek.1)

theorem withinCapacity_sublist (capacity : Option Nat) (history : List Entry) :
    (withinCapacity capacity history).Sublist history := by
  cases capacity with
  | none => exact .refl history
  | some c => exact List.drop_sublist _ history

/-- The evaluations kept after another one are among those before and the new
one. -/
theorem mem_history_evaluate {entry : Entry}
    (h : entry ∈ (e.evaluate p values).1.history) :
    entry ∈ e.history ∨ entry.values = values := by
  have synced : (e.sync p).history.Sublist e.history := by
    unfold sync
    split
    · exact List.nil_sublist _
    · exact .refl _
  have goes := evaluate_goes e p values
  generalize e.evaluate p values = result at goes h
  cases goes with
  | refused length => exact .inl h
  | found length found peek => exact .inl (synced.subset h)
  | failed length peek sheet err called => exact .inl (synced.subset h)
  | recorded length peek sheet fitness objectives missing called =>
    rcases List.mem_append.1 ((withinCapacity_sublist _ _).subset h) with
      old | new
    · exact .inl (synced.subset old)
    · rw [List.mem_singleton.1 new]
      exact .inr rfl

/-- What can be seen after an evaluation of some values: the answer, and the
verdict of the trend. -/
def observe (p : Problem) (e : Evaluator) (values : List Float) :
    Evaluator × Except SheetError Evaluation × Verdict :=
  let (next, answer) := e.evaluate p values
  (next, answer, next.trend.verdict)

/-- What a run keeps between an evaluator with a capacity and one without: the
same sheet and the same evaluations, all of values that were given, of which the
first keeps the newest. -/
structure SideBySide (config : SearchConfig) (c : Nat)
    (given : List (List Float)) (e u : Evaluator) : Prop where
  bounded : ∃ memo, e = u.bounded c memo
  inStep : LockStep config e
  inStep' : LockStep { config with capacity := none } u
  given : ∀ entry ∈ u.history, entry.values ∈ given

theorem SideBySide.observe {given : List (List Float)} {e u : Evaluator}
    (h : SideBySide config c given e u) (two : 2 ≤ c)
    (trend : config.trendWindow ≤ c) (stagnation : config.stagnationWindow ≤ c)
    (length : values.length = p.designVariables.length)
    (fresh : ∀ xs ∈ given, ¬Problem.PrintAlike xs values) :
    (e.observe p values).2 = (u.observe p values).2 ∧
      SideBySide config c (given ++ [values]) (e.observe p values).1
        (u.observe p values).1 := by
  obtain ⟨⟨memo, rfl⟩, inStep, inStep', known⟩ := h
  have unbounded : u.config.capacity = none := by rw [inStep'.config_eq]
  have fresh' : ∀ entry ∈ u.history,
      ¬Problem.PrintAlike entry.values values := by
    intro entry mem
    exact fresh _ (known entry mem)
  have kept : (u.bounded c memo).history.Sublist u.history :=
    List.drop_sublist _ _
  -- Neither memo has the values, so both evaluators look at the same sheet.
  obtain ⟨memo', same⟩ :=
    evaluate_bounded unbounded (show c ≠ 0 by omega) length
      (inStep'.peek?_of_fresh fresh')
      (inStep.peek?_of_fresh fun entry mem => fresh' entry (kept.subset mem))
  have next := inStep.evaluate p values
  have next' := inStep'.evaluate p values
  have config_eq := next'.config_eq
  unfold Evaluator.observe
  rw [same] at next ⊢
  dsimp only
  refine ⟨?_, ⟨memo', rfl⟩, next, next', ?_⟩
  · rw [trend_bounded two (by rwa [config_eq]) (by rwa [config_eq])]
  · intro entry mem
    rcases mem_history_evaluate mem with old | new
    · exact List.mem_append_left _ (known entry old)
    · rw [new]
      simp

theorem new_of_validate (sheet : Sheet) (valid : config.validate = .ok config) :
    new sheet config =
      .ok ⟨sheet, config, .empty config.capacity, .start, [], 0⟩ := by
  rw [new, valid]

theorem SideBySide.start {sheet : Sheet} (valid : config.validate = .ok config)
    (valid' : SearchConfig.validate { config with capacity := none } =
      .ok { config with capacity := none })
    (bounded : config.capacity = some c) :
    SideBySide config c []
      ⟨sheet, config, .empty config.capacity, .start, [], 0⟩
      ⟨sheet, { config with capacity := none }, .empty none, .start, [],
        0⟩ := by
  refine ⟨⟨.empty config.capacity, ?_⟩, .start (new_of_validate sheet valid),
    .start (new_of_validate sheet valid'), ?_⟩
  · rw [Evaluator.bounded, List.rtake_nil, ← bounded]
  · intro entry mem
    cases mem

/-- An evaluator whose capacity covers both windows of the trend and one without
capacity, over the same sheet, give the same answers to evaluations of values
that all print differently, and after each of them the same verdict on the
trend. -/
theorem capacity_keeps_verdicts (sheet : Sheet)
    (valid : config.validate = .ok config) (bounded : config.capacity = some c)
    (trend : config.trendWindow ≤ c) (stagnation : config.stagnationWindow ≤ c)
    (p : Problem) {vectors : List (List Float)}
    (length : ∀ values ∈ vectors, values.length = p.designVariables.length)
    (distinct : vectors.Pairwise fun xs ys => ¬Problem.PrintAlike xs ys) :
    ∃ e u, new sheet config = .ok e ∧
      new sheet { config with capacity := none } = .ok u ∧
      (perform (observe p) e vectors).2 =
        (perform (observe p) u vectors).2 := by
  obtain ⟨-, window, -, -⟩ :=
    SearchConfig.fault?_eq_none_iff.1 (SearchConfig.validate_eq_ok_iff.1 valid)
  have valid' := SearchConfig.validate_unbounded valid
  refine ⟨_, _, new_of_validate sheet valid, new_of_validate sheet valid', ?_⟩
  refine (perform_related (SideBySide.start valid valid' bounded) ?_).1
  rintro before values after rfl e u sideBySide
  refine sideBySide.observe (window.trans trend) trend stagnation
    (length values (by simp)) ?_
  intro xs earlier
  exact (List.pairwise_append.1 distinct).2.2 xs earlier values
    List.mem_cons_self

/-- With room for two evaluations, the first one of three is dropped, unseen. -/
theorem capacity_keeps_verdicts_sample :
    SearchConfig.validate ⟨1, 1, 2, 2, some 2⟩ = .ok ⟨1, 1, 2, 2, some 2⟩ ∧
      ([[1], [2], [3]] : List (List Float)).Pairwise
        (fun xs ys => ¬Problem.PrintAlike xs ys) ∧
      ∃ e u, new sample.sheet ⟨1, 1, 2, 2, some 2⟩ = .ok e ∧
        new sample.sheet ⟨1, 1, 2, 2, none⟩ = .ok u ∧
        (perform (observe sampleProblem) e [[1], [2], [3]]).1.history.length =
          2 ∧
        (perform (observe sampleProblem) e [[1], [2], [3]]).2 =
          (perform (observe sampleProblem) u [[1], [2], [3]]).2 := by
  have valid : SearchConfig.validate ⟨1, 1, 2, 2, some 2⟩ =
      .ok ⟨1, 1, 2, 2, some 2⟩ := by
    decide +kernel
  have distinct : ([[1], [2], [3]] : List (List Float)).Pairwise
      fun xs ys => ¬Problem.PrintAlike xs ys := by
    simp only [Problem.printAlike_iff_map]
    decide +kernel
  obtain ⟨e, u, newE, newU, same⟩ :=
    capacity_keeps_verdicts sample.sheet valid rfl
      (Nat.le_refl 2) (Nat.le_refl 2) sampleProblem (by decide) distinct
  refine ⟨valid, distinct, e, u, newE, newU, ?_, same⟩
  rw [new_of_validate sample.sheet valid, Except.ok.injEq] at newE
  rw [← newE]
  decide +kernel

end Evaluator
end Worksheet

import Mathlib.Data.List.Induction
import Mathlib.Tactic.Common
import Worksheet.Proofs.Search.Evaluation
import Worksheet.Proofs.Search.Memo
import Worksheet.Proofs.Search.Problem

/-!
# Memo and history in step

History and memo of an evaluator are trimmed by different code, one after and
one before the new evaluation is put in. Over every run they hold the same
evaluations in the same order, so that the memo answers a problem just when the
history has an evaluation of it at values that print the same.
-/

namespace Worksheet.Evaluator

/-- What can be done with an evaluator. -/
inductive Action where
  | evaluate (p : Problem) (values : List Float)
  | sync (p : Problem)

/-- The evaluator after an action. -/
def act (e : Evaluator) : Action → Evaluator
  | .evaluate p values => (e.evaluate p values).1
  | .sync p => e.sync p

/-- The evaluator after actions, the first of the list first. -/
def run (e : Evaluator) (actions : List Action) : Evaluator :=
  actions.foldl act e

theorem run_append_singleton (e : Evaluator) (actions : List Action)
    (a : Action) :
    e.run (actions ++ [a]) = (e.run actions).act a := by
  simp [run]

/-- Whether an action is an evaluation with as many values as the problem has
design variables. -/
def Action.looksUp : Action → Bool
  | .evaluate p values => values.length == p.designVariables.length
  | .sync _ => false

/-- The history as entries under the keys of a problem. -/
def keyed (e : Evaluator) (p : Problem) : List (Text × Entry) :=
  e.history.map fun h => (p.key h.values, h)

/-- What every run keeps about an evaluator: memo and history hold the same
evaluations, all of the problem at hand, and these are the newest ones that the
capacity leaves. -/
structure LockStep (config : SearchConfig) (e : Evaluator) : Prop where
  config_eq : e.config = config
  capacity_eq : e.memo.capacity = config.capacity
  positive : config.capacity ≠ some 0
  content : (e.tracker.current = none ∧ e.history = [] ∧ e.memo.Holds []) ∨
    ∃ p : Problem, e.tracker.current = some p.signature ∧
      e.memo.Holds (e.keyed p)
  length_history : e.history.length =
    config.capacity.elim e.iteration (min e.iteration)
  iterations : e.history.map Entry.iteration =
    List.range' (e.iteration + 1 - e.history.length) e.history.length

variable {config : SearchConfig} {e : Evaluator} {p q : Problem}

theorem keyed_congr (h : p.signature = q.signature) :
    e.keyed p = e.keyed q := by
  unfold keyed
  congr 1
  ext entry : 1
  rw [Problem.key_eq_of_signature_eq h]

theorem current_sync (e : Evaluator) (p : Problem) :
    (e.sync p).tracker.current = some p.signature := by
  unfold sync differs
  split
  · next differs => rw [Tracker.update, if_pos differs]
  · next same => simpa [Tracker.differs] using same

namespace LockStep

/-- The memo holds the history under the keys of every problem with the
signature at hand. -/
theorem holds (h : LockStep config e)
    (hp : e.tracker.current = some p.signature) :
    e.memo.Holds (e.keyed p) := by
  rcases h.content with ⟨none, -, -⟩ | ⟨q, hq, holds⟩
  · rw [none] at hp
    cases hp
  · rw [hp, Option.some.injEq] at hq
    rw [keyed_congr hq]
    exact holds

theorem length_le (h : LockStep config e) : e.history.length ≤ e.iteration := by
  rw [h.length_history]
  cases config.capacity with
  | none => exact le_refl _
  | some c => exact Nat.min_le_left _ _

/-! ## One action -/

theorem start {sheet : Sheet} (h : new sheet config = .ok e) :
    LockStep config e := by
  unfold new SearchConfig.validate at h
  split at h
  · next valid hv =>
    split at hv
    · cases hv
    next fault =>
    cases hv
    cases h
    -- A capacity of zero is a fault of the configuration.
    refine ⟨rfl, rfl, ?_, .inl ⟨rfl, rfl, .empty _⟩, ?_, rfl⟩
    · intro zero
      simp only [SearchConfig.fault?, zero, if_true] at fault
      split at fault
      · cases fault
      · split at fault <;> cases fault
    · cases config.capacity <;> simp
  · cases h

theorem sync (h : LockStep config e) (p : Problem) :
    LockStep config (e.sync p) := by
  unfold Evaluator.sync
  split
  · next differs =>
    have current := current_sync e p
    rw [Evaluator.sync, if_pos differs] at current
    refine ⟨h.config_eq, h.capacity_eq, h.positive, .inr ⟨p, current, .clear _⟩,
      ?_, rfl⟩
    cases config.capacity <;> simp
  · exact h

theorem hit (h : LockStep config e) : LockStep config e.hit := by
  refine { h with content := ?_ }
  rcases h.content with ⟨none, history, holds⟩ | ⟨p, hp, holds⟩
  · exact .inl ⟨none, history, holds.order, holds.nodup, holds.table⟩
  · exact .inr ⟨p, hp, holds.order, holds.nodup, holds.table⟩

theorem missed (h : LockStep config e) (sheet : Sheet) :
    LockStep config { e.missed with sheet } := by
  refine { h with content := ?_ }
  rcases h.content with ⟨none, history, holds⟩ | ⟨p, hp, holds⟩
  · exact .inl ⟨none, history, holds.order, holds.nodup, holds.table⟩
  · exact .inr ⟨p, hp, holds.order, holds.nodup, holds.table⟩

/-- After the push the history is trimmed to what the memo kept before the
insertion. -/
theorem withinCapacity_eq (h : LockStep config e) (entry : Entry) :
    withinCapacity e.config.capacity (e.history ++ [entry]) =
      Memo.kept config.capacity e.history ++ [entry] := by
  rw [h.config_eq]
  cases hc : config.capacity with
  | none => rfl
  | some c =>
    cases c with
    | zero => exact absurd hc h.positive
    | succ c => exact List.rtake_concat_succ e.history c entry

theorem length_kept_le (h : LockStep config e) :
    (Memo.kept config.capacity e.history).length ≤ e.iteration :=
  (Memo.kept_sublist _ _).length_le.trans h.length_le

/-- What the capacity leaves of consecutive numbers is consecutive and ends with
the same number. -/
theorem iterations_kept (h : LockStep config e) :
    (Memo.kept config.capacity e.history).map Entry.iteration =
      List.range'
        (e.iteration + 1 - (Memo.kept config.capacity e.history).length)
        (Memo.kept config.capacity e.history).length := by
  rw [Memo.map_kept, h.iterations]
  cases config.capacity with
  | none => rfl
  | some c =>
    have bound := h.length_le
    rw [Memo.length_kept, Memo.kept, List.rtake, List.length_range',
      List.drop_range']
    congr 1 <;> omega

/-- Recording an evaluation of the problem at hand, after a look-up that found
nothing. -/
theorem record (h : LockStep config e)
    (hp : e.tracker.current = some p.signature) (entry : Entry)
    (peek : e.memo.peek? (p.key entry.values) = none)
    (next : entry.iteration = e.iteration + 1) :
    LockStep config (e.record (p.key entry.values) entry) := by
  have history : (e.record (p.key entry.values) entry).history =
      Memo.kept config.capacity e.history ++ [entry] :=
    h.withinCapacity_eq entry
  have iteration :
      (e.record (p.key entry.values) entry).iteration = e.iteration + 1 := next
  refine ⟨h.config_eq, (Memo.capacity_insert ..).trans h.capacity_eq,
    h.positive, .inr ⟨p, hp, ?_⟩, ?_, ?_⟩
  · -- The key is new, so the memo evicts as many entries as the history is
    -- trimmed by.
    have inserted := (h.holds hp).insert peek entry
    rw [h.capacity_eq, keyed, ← Memo.map_kept] at inserted
    rw [keyed, history, List.map_append]
    exact inserted
  · -- Both sides grow by one until the capacity is reached.
    rw [history, iteration, List.length_append, List.length_singleton]
    have length := h.length_history
    cases hc : config.capacity with
    | none =>
      rw [hc] at length
      exact congrArg (· + 1) length
    | some c =>
      have positive : c ≠ 0 := by
        rintro rfl
        exact h.positive hc
      rw [hc] at length
      simp only [Option.elim_some] at length
      rw [Memo.length_kept, length]
      simp only [Option.elim_some]
      omega
  · have bound := h.length_kept_le
    generalize hm : (Memo.kept config.capacity e.history).length = m at bound
    have first : e.iteration + 1 + 1 - (m + 1) = e.iteration + 1 - m := by omega
    have last : e.iteration + 1 - m + 1 * m = e.iteration + 1 := by omega
    rw [history, iteration, List.map_append, h.iterations_kept,
      List.length_append, List.length_singleton, List.map_singleton, next, hm,
      List.range'_concat, first, last]

/-- Every evaluation keeps memo and history in step. -/
theorem evaluate (h : LockStep config e) (p : Problem) (values : List Float) :
    LockStep config (e.evaluate p values).1 := by
  have goes := evaluate_goes e p values
  generalize e.evaluate p values = result at goes ⊢
  cases goes with
  | refused length => exact h
  | found length entry peek => exact (h.sync p).hit
  -- Without a record, an evaluation changes the counts and the sheet only.
  | failed length peek sheet err called => exact (h.sync p).missed sheet
  | recorded length peek sheet fitness objectives missing called =>
    exact ((h.sync p).missed sheet).record (current_sync e p)
      ⟨values, fitness, objectives, (e.sync p).iteration + 1⟩ peek rfl

theorem act (h : LockStep config e) (a : Action) :
    LockStep config (e.act a) := by
  cases a with
  | evaluate p values => exact h.evaluate p values
  | sync p => exact h.sync p

/-- Every run keeps memo and history in step. -/
theorem run (h : LockStep config e) (actions : List Action) :
    LockStep config (e.run actions) := by
  induction actions using List.reverseRecOn with
  | nil => exact h
  | append_singleton actions a ih =>
    rw [run_append_singleton]
    exact ih.act a

end LockStep

/-! ## Counted look-ups -/

@[simp] theorem lookups_insert (m : Memo) (key : Text) (entry : Entry) :
    (m.insert key entry).hits + (m.insert key entry).misses =
      m.hits + m.misses := by
  unfold Memo.insert
  split <;> rfl

@[simp] theorem lookups_sync (e : Evaluator) (p : Problem) :
    (e.sync p).memo.hits + (e.sync p).memo.misses =
      e.memo.hits + e.memo.misses := by
  unfold sync
  split <;> rfl

/-- An action counts one look-up or none. -/
theorem lookups_act (e : Evaluator) (a : Action) :
    (e.act a).memo.hits + (e.act a).memo.misses =
      e.memo.hits + e.memo.misses + if a.looksUp then 1 else 0 := by
  cases a with
  | sync p => exact lookups_sync e p
  | evaluate p values =>
    have sync := lookups_sync e p
    have goes := evaluate_goes e p values
    simp only [act, Action.looksUp]
    generalize e.evaluate p values = result at goes ⊢
    cases goes with
    | refused length => simp [length]
    | found length entry peek =>
      simp only [hit, length, BEq.rfl, if_true]
      omega
    | failed length peek sheet err called =>
      simp only [missed, length, BEq.rfl, if_true]
      omega
    | recorded length peek sheet fitness objectives missing called =>
      simp only [record, lookups_insert, missed, length, BEq.rfl, if_true]
      omega

theorem lookups_run (e : Evaluator) (actions : List Action) :
    (e.run actions).memo.hits + (e.run actions).memo.misses =
      e.memo.hits + e.memo.misses + actions.countP Action.looksUp := by
  induction actions using List.reverseRecOn with
  | nil => rfl
  | append_singleton actions a ih =>
    rw [run_append_singleton, lookups_act, ih, List.countP_append,
      List.countP_singleton]
    omega

/-! ## Runs from a new evaluator -/

/-- Actions reach an evaluator when they lead to it from a new one. -/
def ReachedBy (config : SearchConfig) (actions : List Action) (e : Evaluator) :
    Prop :=
  ∃ sheet start, new sheet config = .ok start ∧ start.run actions = e

theorem ReachedBy.lockStep {actions : List Action}
    (h : ReachedBy config actions e) :
    LockStep config e := by
  obtain ⟨sheet, start, hstart, rfl⟩ := h
  exact (LockStep.start hstart).run actions

theorem ReachedBy.lookups {actions : List Action}
    (h : ReachedBy config actions e) :
    e.memo.hits + e.memo.misses = actions.countP Action.looksUp := by
  obtain ⟨sheet, start, hstart, rfl⟩ := h
  have none : start.memo.hits + start.memo.misses = 0 := by
    unfold new at hstart
    split at hstart
    · cases hstart
      rfl
    · cases hstart
  rw [lookups_run, none, Nat.zero_add]

/-- What an evaluation that fails with enough values leaves as it is after
taking the problem. -/
theorem evaluate_error {err : SheetError} {e' : Evaluator} {values : List Float}
    (length : values.length = p.designVariables.length)
    (h : e.evaluate p values = (e', .error err)) :
    ∃ sheet, e' = { (e.sync p).missed with sheet } := by
  have goes := evaluate_goes e p values
  rw [h] at goes
  cases goes with
  | refused different => exact absurd length different
  | failed _ peek sheet _ called => exact ⟨sheet, rfl⟩

/-- Memo and history of every reachable evaluator hold the same evaluations,
oldest first: the newest ones of the problem at hand, as many as the capacity
leaves, with consecutive numbers up to the last. Every look-up is counted, and
an evaluation that fails adds nothing. -/
theorem memo_history_in_step {actions : List Action}
    (h : ReachedBy config actions e) :
    (e.tracker.current = none ∧ e.history = [] ∧ e.memo.order = [] ∧
      e.memo.table = [] ∨
      ∃ p : Problem, e.tracker.current = some p.signature) ∧
    (∀ p : Problem, e.tracker.current = some p.signature →
      e.memo.order = e.history.map (fun entry => p.key entry.values) ∧
      e.memo.order.Nodup ∧
      ∀ entry ∈ e.history, e.memo.peek? (p.key entry.values) = some entry) ∧
    e.history.length = e.memo.size ∧
    e.memo.size = (match config.capacity with
      | some c => min e.iteration c
      | none => e.iteration) ∧
    e.history.map Entry.iteration =
      List.range' (e.iteration + 1 - e.history.length) e.history.length ∧
    e.memo.hits + e.memo.misses = actions.countP Action.looksUp ∧
    ∀ (p : Problem) (values : List Float),
      (values.length ≠ p.designVariables.length → e.evaluate p values =
        (e, .error (.invalidConfig
          (.valueCount p.designVariables.length values.length)))) ∧
      (values.length = p.designVariables.length → ∀ e' err,
        e.evaluate p values = (e', .error err) →
          e'.history = (e.sync p).history ∧
          e'.memo.order = (e.sync p).memo.order ∧
          e'.memo.table = (e.sync p).memo.table ∧
          e'.iteration = (e.sync p).iteration) := by
  have step := h.lockStep
  have size : e.history.length = e.memo.size := by
    rcases step.content with ⟨-, history, holds⟩ | ⟨p, -, holds⟩
    · rw [holds.size_eq, history]
      rfl
    · rw [holds.size_eq, keyed, List.length_map]
  refine ⟨?_, ?_, size, ?_, step.iterations, h.lookups, ?_⟩
  · rcases step.content with ⟨none, history, holds⟩ | ⟨p, hp, -⟩
    · exact .inl ⟨none, history, holds.order, List.perm_nil.1 holds.table⟩
    · exact .inr ⟨p, hp⟩
  · intro p hp
    have holds := step.holds hp
    refine ⟨?_, holds.order ▸ holds.nodup, ?_⟩
    · rw [holds.order, keyed, List.map_map]
      rfl
    · intro entry hentry
      exact holds.peek?_eq_some_iff.2 (List.mem_map.2 ⟨entry, hentry, rfl⟩)
  · rw [← size, step.length_history]
    cases config.capacity with
    | none => rfl
    | some c => rfl
  · intro p values
    constructor
    · intro different
      rw [evaluate, if_neg different]
    · intro length e' err failed
      obtain ⟨sheet, rfl⟩ := evaluate_error length failed
      exact ⟨rfl, rfl, rfl, rfl⟩

/-- A problem of one design variable and one objective. -/
def sampleProblem : Problem := ⟨["x".toList], ["y".toList], [], []⟩

/-- A new evaluator with room for one evaluation, over a sheet whose renderer
gives no results. -/
def sample : Evaluator :=
  ⟨((Sheet.new .standard).load "x = 1".toList).setRenderer fun _ _ => .ok [],
    ⟨1, 1, 2, 2, some 1⟩, .empty (some 1), .start, [], 0⟩

/-- Evaluations of the sample problem, one for each value. -/
def sampleRun (xs : List Float) : List Action :=
  xs.map fun x => .evaluate sampleProblem [x]

theorem sample_reachedBy (actions : List Action) :
    ReachedBy sample.config actions (sample.run actions) :=
  ⟨sample.sheet, sample, rfl, rfl⟩

/-- After two evaluations there is one in the memo and one in the history. -/
theorem memo_history_in_step_sample :
    ReachedBy sample.config (sampleRun [2, 3]) (sample.run (sampleRun [2, 3])) ∧
      (sample.run (sampleRun [2, 3])).history.length =
        (sample.run (sampleRun [2, 3])).memo.size ∧
      (sample.run (sampleRun [2, 3])).memo.size =
        min (sample.run (sampleRun [2, 3])).iteration 1 := by
  have reached := sample_reachedBy (sampleRun [2, 3])
  obtain ⟨-, -, history, size, -⟩ := memo_history_in_step reached
  exact ⟨reached, history, size⟩

/-! ## Answers from the memo -/

/-- The memo has an entry for values just when the history has one at values
that print the same. -/
theorem LockStep.peek?_eq_some_iff (h : LockStep config e)
    (hp : e.tracker.current = some p.signature) {values : List Float}
    {entry : Entry} :
    e.memo.peek? (p.key values) = some entry ↔
      entry ∈ e.history ∧ Problem.PrintAlike entry.values values := by
  rw [(h.holds hp).peek?_eq_some_iff, keyed, List.mem_map]
  constructor
  · rintro ⟨entry', mem, eq⟩
    rw [Prod.mk.injEq] at eq
    obtain ⟨key, rfl⟩ := eq
    exact ⟨mem, Problem.key_eq_iff.1 key⟩
  · rintro ⟨mem, same⟩
    exact ⟨entry, mem, by rw [Problem.key_eq_iff.2 same]⟩

theorem sync_of_current (h : e.tracker.current = some p.signature) :
    e.sync p = e := by
  simp [sync, differs, Tracker.differs, h]

/-- Another problem than the one at hand finds the memo empty. -/
theorem current_of_peek? {key : Text} {entry : Entry}
    (peek : (e.sync p).memo.peek? key = some entry) :
    e.tracker.current = some p.signature := by
  unfold sync differs at peek
  split at peek
  · cases peek
  · next same => simpa [Tracker.differs] using same

theorem evaluate_cached {values : List Float} {answer : Evaluation}
    (ok : (e.evaluate p values).2 = .ok answer)
    (cached : answer.cached = true) :
    ∃ entry, (e.sync p).memo.peek? (p.key values) = some entry := by
  have goes := evaluate_goes e p values
  generalize e.evaluate p values = result at goes ok
  cases goes with
  | refused different => cases ok
  | found _ entry peek => exact ⟨entry, peek⟩
  | failed _ peek => cases ok
  | recorded _ peek =>
    cases ok
    cases cached

theorem calledAtMostOnce_evaluate (e : Evaluator) (p : Problem)
    (values : List Float) :
    e.sheet.CalledAtMostOnce (e.evaluate p values).1.sheet := by
  have goes := evaluate_goes e p values
  generalize e.evaluate p values = result at goes ⊢
  cases goes with
  | refused => exact .inl ⟨rfl, rfl⟩
  | found =>
    rw [hit, sheet_sync]
    exact .inl ⟨rfl, rfl⟩
  | failed _ _ _ _ called => exact called
  | recorded _ _ _ _ _ _ called => exact called

/-- An evaluation is answered from the memo just when the problem is the one at
hand and the history has an evaluation at values that print the same. The answer
is then that evaluation, and nothing but the count of hits changes; otherwise
the renderer is called at most once. -/
theorem evaluate_cached_iff {actions : List Action}
    (h : ReachedBy config actions e) (values : List Float)
    (length : values.length = p.designVariables.length) :
    ((∃ answer, (e.evaluate p values).2 = .ok answer ∧ answer.cached = true) ↔
      e.tracker.current = some p.signature ∧ ∃ entry ∈ e.history,
        Problem.PrintAlike entry.values values) ∧
    (e.tracker.current = some p.signature → ∀ entry ∈ e.history,
      Problem.PrintAlike entry.values values →
        e.evaluate p values =
          ({ e with memo := { e.memo with hits := e.memo.hits + 1 } },
            .ok ⟨entry.fitness, entry.objectives, true, entry.iteration, []⟩)) ∧
    e.sheet.CalledAtMostOnce (e.evaluate p values).1.sheet ∧
    ∀ xs ys, Problem.PrintAlike xs ys ↔
      List.Forall₂ (fun x y => x.toBits = y.toBits ∨ x.isNaN = true ∧
        y.isNaN = true) xs ys := by
  have step := h.lockStep
  -- Taking the problem at hand changes nothing, so the look-up is in the memo
  -- of `e`.
  have answered : e.tracker.current = some p.signature → ∀ entry ∈ e.history,
      Problem.PrintAlike entry.values values →
        e.evaluate p values = (e.hit, .ok (.ofEntry entry)) := by
    intro hp entry mem same
    have peek := (step.peek?_eq_some_iff hp).2 ⟨mem, same⟩
    rw [← sync_of_current hp] at peek
    rw [evaluate_of_peek? length peek, sync_of_current hp]
  refine ⟨⟨?_, ?_⟩, answered, calledAtMostOnce_evaluate e p values, ?_⟩
  · rintro ⟨answer, ok, cached⟩
    obtain ⟨entry, peek⟩ := evaluate_cached ok cached
    have hp := current_of_peek? peek
    rw [sync_of_current hp, step.peek?_eq_some_iff hp] at peek
    exact ⟨hp, entry, peek⟩
  · rintro ⟨hp, entry, mem, same⟩
    exact ⟨.ofEntry entry, by rw [answered hp entry mem same], rfl⟩
  · intro xs ys
    exact Problem.printAlike_iff

/-- After an evaluation at `2`, another one at `2` is answered from the memo. -/
theorem evaluate_cached_iff_sample :
    ReachedBy sample.config (sampleRun [2]) (sample.run (sampleRun [2])) ∧
      ([2] : List Float).length = sampleProblem.designVariables.length ∧
      ∃ answer, ((sample.run (sampleRun [2])).evaluate sampleProblem [2]).2 =
        .ok answer ∧
        answer.cached = true := by
  have reached := sample_reachedBy (sampleRun [2])
  have current : (sample.run (sampleRun [2])).tracker.current =
      some sampleProblem.signature := by
    decide +kernel
  have evaluated : ∃ entry ∈ (sample.run (sampleRun [2])).history,
      entry.values.map Decimal.roundTrip = [2].map Decimal.roundTrip := by
    decide +kernel
  obtain ⟨entry, mem, same⟩ := evaluated
  have alike := Problem.printAlike_iff_map.2 same
  exact ⟨reached, rfl, (evaluate_cached_iff reached [2] rfl).1.2
    ⟨current, entry, mem, alike⟩⟩

end Worksheet.Evaluator

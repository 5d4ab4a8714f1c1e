import Mathlib.Tactic.Common
import Worksheet.Proofs.Sheet
import Worksheet.Search.Evaluator

/-!
# How an evaluation goes

An evaluation is refused, answered from the memo, broken off with an error, or
recorded. All that later theorems need about `evaluate` is in the four cases of
`Goes`; in none of them is the renderer called twice.
-/

namespace Worksheet

/-- After a step, the renderer was called at most once more. -/
def Sheet.CalledAtMostOnce (before after : Sheet) : Prop :=
  (after.renders = before.renders ∧ after.engine = before.engine) ∨
  ∃ engine request, before.engine = some engine ∧
    after.renders = before.renders + 1 ∧
    after.engine = some { engine with requests := engine.requests ++ [request] }

namespace Sheet

theorem setVariables_keeps {s s' : Sheet} {values : List (Text × Float)}
    {assigned : Assigned} (h : s.setVariables values = .ok (s', assigned)) :
    s'.renders = s.renders ∧ s'.engine = s.engine := by
  obtain ⟨-, rfl, -⟩ := of_setVariables h
  exact ⟨renders_withSource s _, engine_withSource s _⟩

theorem calledAtMostOnce_calculate (s : Sheet) :
    s.CalledAtMostOnce s.calculate.1 := by
  unfold calculate
  split
  · exact .inl ⟨rfl, rfl⟩
  next engine he =>
  split
  · exact .inl ⟨rfl, rfl⟩
  split
  · exact .inl ⟨rfl, rfl⟩
  dsimp only
  split <;> exact .inr ⟨engine, _, he, rfl, rfl⟩

theorem CalledAtMostOnce.after_assignment {s s' t : Sheet}
    (same : s'.renders = s.renders ∧ s'.engine = s.engine)
    (h : s'.CalledAtMostOnce t) :
    s.CalledAtMostOnce t := by
  rcases h with ⟨renders, engine⟩ | ⟨engine, request, he, renders, engine'⟩
  · exact .inl ⟨renders.trans same.1, engine.trans same.2⟩
  · exact .inr ⟨engine, request, same.2 ▸ he, by rw [renders, same.1], engine'⟩

end Sheet

namespace Evaluator

/-- The evaluator after a look-up that found an entry. -/
def hit (e : Evaluator) : Evaluator :=
  { e with memo := { e.memo with hits := e.memo.hits + 1 } }

/-- The evaluator after a look-up that found nothing. -/
def missed (e : Evaluator) : Evaluator :=
  { e with memo := { e.memo with misses := e.memo.misses + 1 } }

/-- How an evaluation may go, by the evaluator and the answer that it gives. -/
inductive Goes (e : Evaluator) (p : Problem) (values : List Float) :
    Evaluator × Except SheetError Evaluation → Prop
  | refused (length : values.length ≠ p.designVariables.length) :
    Goes e p values
      (e, .error (.invalidConfig
        (.valueCount p.designVariables.length values.length)))
  | found (length : values.length = p.designVariables.length) (entry : Entry)
    (peek : (e.sync p).memo.peek? (p.key values) = some entry) :
    Goes e p values ((e.sync p).hit, .ok (.ofEntry entry))
  | failed (length : values.length = p.designVariables.length)
    (peek : (e.sync p).memo.peek? (p.key values) = none) (sheet : Sheet)
    (err : SheetError)
    (called : e.sheet.CalledAtMostOnce sheet) :
    Goes e p values ({ (e.sync p).missed with sheet }, .error err)
  | recorded (length : values.length = p.designVariables.length)
    (peek : (e.sync p).memo.peek? (p.key values) = none) (sheet : Sheet)
    (fitness : Float)
    (objectives : List Float) (missing : List Text)
    (called : e.sheet.CalledAtMostOnce sheet) :
    Goes e p values
      (record { (e.sync p).missed with sheet } (p.key values)
          ⟨values, fitness, objectives, (e.sync p).iteration + 1⟩,
        .ok ⟨fitness, objectives, false, (e.sync p).iteration + 1, missing⟩)

theorem sheet_sync (e : Evaluator) (p : Problem) :
    (e.sync p).sheet = e.sheet := by
  unfold sync
  split <;> rfl

theorem config_sync (e : Evaluator) (p : Problem) :
    (e.sync p).config = e.config := by
  unfold sync
  split <;> rfl

/-- An evaluation that the memo does not have looks at the sheet. -/
theorem evaluate_of_peek?_none {e : Evaluator} {p : Problem}
    {values : List Float} (length : values.length = p.designVariables.length)
    (peek : (e.sync p).memo.peek? (p.key values) = none) :
    e.evaluate p values =
      (e.sync p).missed.evaluateFresh p values (p.key values) := by
  have counted :
      (e.sync p).memo.count (p.key values) = (e.sync p).missed.memo := by
    simp [Memo.count, peek, missed]
  rw [evaluate, if_pos length]
  dsimp only
  rw [peek, counted]
  rfl

/-- An evaluation that the memo has is answered from there. -/
theorem evaluate_of_peek? {e : Evaluator} {p : Problem} {values : List Float}
    (length : values.length = p.designVariables.length) {entry : Entry}
    (peek : (e.sync p).memo.peek? (p.key values) = some entry) :
    e.evaluate p values = ((e.sync p).hit, .ok (.ofEntry entry)) := by
  have counted :
      (e.sync p).memo.count (p.key values) = (e.sync p).hit.memo := by
    simp [Memo.count, peek, hit]
  rw [evaluate, if_pos length]
  dsimp only
  rw [peek, counted]
  rfl

theorem evaluate_goes (e : Evaluator) (p : Problem) (values : List Float) :
    Goes e p values (e.evaluate p values) := by
  by_cases length : values.length = p.designVariables.length
  · cases peek : (e.sync p).memo.peek? (p.key values) with
    | some entry =>
      rw [evaluate_of_peek? length peek]
      exact .found length entry peek
    | none =>
      rw [evaluate_of_peek?_none length peek]
      unfold evaluateFresh
      split
      · next err _ =>
        -- The values could not be assigned, so that the renderer is not called.
        refine .failed length peek (e.sync p).sheet err ?_
        rw [sheet_sync]
        exact .inl ⟨rfl, rfl⟩
      next assignedSheet assigned hassign =>
      have called := (assignedSheet.calledAtMostOnce_calculate).after_assignment
        (Sheet.setVariables_keeps hassign)
      rw [missed, sheet_sync] at called
      split
      · next sheet err hcalc =>
        rw [hcalc] at called
        exact .failed length peek sheet err called
      · next sheet _ hcalc =>
        rw [hcalc] at called
        exact .recorded length peek sheet _ _ _ called
  · rw [evaluate, if_neg length]
    exact .refused length

end Evaluator
end Worksheet

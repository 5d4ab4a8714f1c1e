import Mathlib.Data.List.Induction
import Mathlib.Tactic.Common

/-!
# Runs of actions

A run performs actions one after another and keeps their answers. Two systems
give the same answers over a run when a relation between their states, which may
speak of the actions performed so far, holds at the start and survives every
step with equal answers. Within one system, actions that do not matter for each
other may come in any order.
-/

namespace Worksheet

variable {σ τ α β ε : Type}

/-- The state after actions, the first of the list first, and their answers in
order. -/
def perform (step : σ → α → σ × β) (s : σ) : List α → σ × List β
  | [] => (s, [])
  | a :: as =>
    let (next, answer) := step s a
    let (last, answers) := perform step next as
    (last, answer :: answers)

theorem perform_cons (step : σ → α → σ × β) (s : σ) (a : α) (as : List α) :
    perform step s (a :: as) =
      ((perform step (step s a).1 as).1,
       (step s a).2 :: (perform step (step s a).1 as).2) := rfl

theorem perform_append_singleton (step : σ → α → σ × β) (s : σ) (as : List α)
    (a : α) :
    perform step s (as ++ [a]) =
      ((step (perform step s as).1 a).1,
        (perform step s as).2 ++ [(step (perform step s as).1 a).2]) := by
  induction as generalizing s with
  | nil => rfl
  | cons b as ih => rw [List.cons_append, perform_cons, ih, perform_cons]; rfl

/-! ## Two systems -/

/-- Two systems that are related at the start and after each step, with equal
answers, are related at the end and gave equal answers. -/
theorem perform_related {f : σ → α → σ × β} {g : τ → α → τ × β}
    {R : List α → σ → τ → Prop} {s : σ} {t : τ} {as : List α} (start : R [] s t)
    (step : ∀ before a after, as = before ++ a :: after → ∀ s t, R before s t →
      (f s a).2 = (g t a).2 ∧ R (before ++ [a]) (f s a).1 (g t a).1) :
    (perform f s as).2 = (perform g t as).2 ∧
      R as (perform f s as).1 (perform g t as).1 := by
  induction as using List.reverseRecOn with
  | nil => exact ⟨rfl, start⟩
  | append_singleton as a ih =>
    have earlier : ∀ before b after, as = before ++ b :: after →
        ∀ s t, R before s t →
        (f s b).2 = (g t b).2 ∧ R (before ++ [b]) (f s b).1 (g t b).1 := by
      rintro before b after rfl
      exact step before b (after ++ [a]) (by simp)
    obtain ⟨answers, related⟩ := ih earlier
    obtain ⟨answer, next⟩ := step as a [] rfl _ _ related
    rw [perform_append_singleton, perform_append_singleton, answers, answer]
    exact ⟨rfl, next⟩

/-- The states of a system are carried into those of another one that steps
along. -/
theorem perform_carried {f : σ → α → σ × β} {g : τ → α → τ × β} {m : τ → σ}
    {as : List α} (along : ∀ a ∈ as, ∀ t, f (m t) a = (m (g t a).1, (g t a).2))
    (t : τ) :
    perform f (m t) as = (m (perform g t as).1, (perform g t as).2) := by
  induction as generalizing t with
  | nil => rfl
  | cons a as ih =>
    have rest : ∀ b ∈ as, ∀ t, f (m t) b = (m (g t b).1, (g t b).2) := by
      intro b hb
      exact along b (List.mem_cons_of_mem a hb)
    rw [perform_cons, perform_cons, along a List.mem_cons_self, ih rest]

/-! ## One system -/

/-- What holds at the start and survives every step holds at the end. -/
theorem perform_invariant {step : σ → α → σ × β} {I : σ → Prop} {s : σ}
    {as : List α} (start : I s) (keeps : ∀ s a, I s → I (step s a).1) :
    I (perform step s as).1 := by
  induction as generalizing s with
  | nil => exact start
  | cons a as ih =>
    rw [perform_cons]
    exact ih (keeps s a start)

theorem perform_fst (step : σ → α → σ × β) (s : σ) (as : List α) :
    (perform step s as).1 = as.foldl (fun s a => (step s a).1) s := by
  induction as generalizing s with
  | nil => rfl
  | cons a as ih => rw [perform_cons, List.foldl_cons, ih]

/-- Actions of which every two come to the same state in either order come to
the same state in every order. -/
theorem perform_fst_perm {step : σ → α → σ × β} {as bs : List α}
    (perm : as.Perm bs)
    (swap : ∀ a ∈ as, ∀ b ∈ as, a ≠ b →
      ∀ s, (step (step s a).1 b).1 = (step (step s b).1 a).1)
    (s : σ) : (perform step s as).1 = (perform step s bs).1 := by
  rw [perform_fst, perform_fst]
  apply perm.foldl_eq'
  intro a ha b hb s
  by_cases same : a = b
  · rw [same]
  · exact swap a ha b hb same s

/-- Actions that do not change the answers of each other are answered as each
alone would be. -/
theorem answers_eq_map {step : σ → α → σ × β} {as : List α} (nodup : as.Nodup)
    (stable : ∀ a ∈ as, ∀ b ∈ as, a ≠ b →
      ∀ s, (step (step s a).1 b).2 = (step s b).2) (s : σ) :
    (perform step s as).2 = as.map fun a => (step s a).2 := by
  induction as generalizing s with
  | nil => rfl
  | cons a as ih =>
    rw [List.nodup_cons] at nodup
    have later : ∀ b ∈ as, (step (step s a).1 b).2 = (step s b).2 := by
      intro b hb
      refine stable a List.mem_cons_self b (List.mem_cons_of_mem a hb) ?_ s
      rintro rfl
      exact nodup.1 hb
    have rest : ∀ b ∈ as, ∀ c ∈ as, b ≠ c →
        ∀ s, (step (step s b).1 c).2 = (step s c).2 := by
      intro b hb c hc
      exact stable b (List.mem_cons_of_mem a hb) c (List.mem_cons_of_mem a hc)
    rw [perform_cons, ih nodup.2 rest, List.map_congr_left later]
    rfl

/-! ## Attempts -/

/-- An attempt at something that may fail: a failure leaves the state and is the
answer. -/
def attempt (f : σ → α → Except ε σ) (s : σ) (a : α) : σ × Option ε :=
  match f s a with
  | .ok next => (next, none)
  | .error e => (s, some e)

theorem attempt_of_ok {f : σ → α → Except ε σ} {s next : σ} {a : α}
    (h : f s a = .ok next) :
    attempt f s a = (next, none) := by
  rw [attempt, h]

theorem attempt_of_error {f : σ → α → Except ε σ} {s : σ} {a : α} {e : ε}
    (h : f s a = .error e) :
    attempt f s a = (s, some e) := by
  rw [attempt, h]

/-- What every success keeps, an attempt keeps. -/
theorem attempt_keeps {f : σ → α → Except ε σ} {I : σ → Prop} {s : σ} {a : α}
    (h : I s) (keeps : ∀ next, f s a = .ok next → I next) :
    I (attempt f s a).1 := by
  cases result : f s a with
  | ok next =>
    rw [attempt_of_ok result]
    exact keeps next result
  | error e =>
    rw [attempt_of_error result]
    exact h

theorem attempt_carried {f : σ → α → Except ε σ} {g : τ → α → Except ε τ}
    {m : τ → σ} {t : τ} {a : α} (along : f (m t) a = (g t a).map m) :
    attempt f (m t) a = (m (attempt g t a).1, (attempt g t a).2) := by
  cases result : g t a with
  | ok next =>
    rw [result] at along
    rw [attempt_of_ok along, attempt_of_ok result]
  | error e =>
    rw [result] at along
    rw [attempt_of_error along, attempt_of_error result]

end Worksheet

import Worksheet.Proofs.Source.Assigned
import Worksheet.Proofs.Source.Reread

/-!
# Batches of writes

A batch of writes goes on past the writes that fail, since no such failure is
structural, and comes to the sheet that writing one value after the other comes
to. When the names are distinct, the writes may come in any order: neither the
last sheet nor what becomes of a write depends on it.
-/

namespace Worksheet.Sheet

open Text

variable {v : Vocabulary} {source : Text} {s : Sheet}
  {values values' : List (Text × Float)}

/-! ## Batches of writes to a source -/

theorem written_of_infinite {w : Text × Float}
    (infinite : ¬ w.2.isFinite = true) :
    written v source w = source := by
  apply written_of_error
  rw [assign, if_neg infinite]

/-- Writes to two names come to the same source in either order. -/
theorem written_comm {w w' : Text × Float} (ne : w.1 ≠ w'.1) :
    written v (written v source w) w' = written v (written v source w') w := by
  by_cases finite : w.2.isFinite = true
  swap
  · rw [written_of_infinite finite, written_of_infinite finite]
  by_cases finite' : w'.2.isFinite = true
  swap
  · rw [written_of_infinite finite', written_of_infinite finite']
  have after : assign v (written v source w') w.1 w.2 =
      (assign v source w.1 w.2).map fun s => written v s w' :=
    assign_written finite finite' ne
  cases first : assign v source w.1 w.2 with
  | ok next =>
    rw [first] at after
    rw [written_of_ok first, written_of_ok after]
  | error e =>
    rw [first] at after
    rw [written_of_error first, written_of_error after]

/-- Writes to distinct names come to the same source in every order, each with
its own outcome. -/
theorem perform_rewrite_perm (v : Vocabulary) (source : Text)
    (distinct : (values.map Prod.fst).Nodup) (perm : values'.Perm values) :
    perform (attempt (rewrite v)) source values' =
      ((perform (attempt (rewrite v)) source values).1,
        values'.map fun w => (attempt (rewrite v) source w).2) := by
  apply Prod.ext
  · apply (perform_fst_perm perm.symm _ source).symm
    intro w hw w' hw' ne source
    have names : w.1 ≠ w'.1 := mt (List.inj_on_of_nodup_map distinct hw hw') ne
    simp only [attempt_rewrite_fst, written_comm names]
  · exact outcomes_rewrite v source ((perm.map Prod.fst).nodup_iff.2 distinct)

/-! ## Batches of writes to a sheet -/

/-- Single writes come to the sheet that the batch comes to. -/
theorem perform_write_eq (loaded : s.stage ≠ .empty)
    (values : List (Text × Float)) :
    perform (attempt write) s values =
      (s.withSource (assignAll s.vocabulary s.source values).1,
        (perform (attempt (rewrite s.vocabulary)) s.source values).2) := by
  rw [perform_write loaded, perform_rewrite_fst]

/-- A write to a sheet comes out as it does for the source. -/
theorem outcome_write (loaded : s.stage ≠ .empty) (w : Text × Float) :
    (attempt write s w).2 = (attempt (rewrite s.vocabulary) s.source w).2 := by
  have carried := attempt_write loaded s.source w
  rw [withSource_source] at carried
  rw [carried]

/-- Writes to distinct names, in any other order, come to the same source, and
each comes out as it would alone. -/
theorem assignAll_perm (loaded : s.stage ≠ .empty)
    (distinct : (values.map Prod.fst).Nodup) (perm : values'.Perm values) :
    (assignAll s.vocabulary s.source values').1 =
      (assignAll s.vocabulary s.source values).1 ∧
      (perform (attempt (rewrite s.vocabulary)) s.source values').2 =
        values'.map fun w => (attempt write s w).2 := by
  have run := perform_rewrite_perm s.vocabulary s.source distinct perm
  simp only [outcome_write loaded]
  rw [← perform_rewrite_fst, ← perform_rewrite_fst, run]
  exact ⟨rfl, rfl⟩

/-- Writes values in turn, adds to a report what becomes of each, and breaks off
at a structural failure. -/
def writeEach (s : Sheet) (a : Assigned) :
    List (Text × Float) → Sheet × Except SheetError Assigned
  | [] => (s, .ok a)
  | w :: ws =>
    match s.write w with
    | .ok next => next.writeEach { a with applied := a.applied ++ [w.1] } ws
    | .error e =>
      if e.isStructural then (s, .error e)
      else s.writeEach { a with failures := a.failures ++ [e] } ws

/-- Writes values into a sheet with a source. -/
def setEach (s : Sheet) (ws : List (Text × Float)) :
    Sheet × Except SheetError Assigned :=
  if s.stage = .empty then (s, .error .noSource) else s.writeEach ⟨[], []⟩ ws

theorem not_isStructural_of_assign {w : Text × Float} {e : SheetError}
    (h : assign v source w.1 w.2 = .error e) : e.isStructural = false := by
  have goes := assign_goes v source w.1 w.2
  rw [h] at goes
  cases goes <;> rfl

/-- The writes are never broken off. -/
theorem writeEach_withSource (loaded : s.stage ≠ .empty) (source : Text)
    (a : Assigned) (ws : List (Text × Float)) :
    (s.withSource source).writeEach a ws =
      (s.withSource (assignAll s.vocabulary source ws).1,
        .ok ⟨a.applied ++ (assignAll s.vocabulary source ws).2.applied,
          a.failures ++ (assignAll s.vocabulary source ws).2.failures⟩) := by
  induction ws generalizing source a with
  | nil => rw [writeEach, assignAll, List.append_nil, List.append_nil]
  | cons w ws ih =>
    rw [writeEach, write, setVariable_withSource loaded, assignAll]
    cases result : assign s.vocabulary source w.1 w.2 with
    | ok next =>
      simp only [Except.map, ih, List.append_assoc, List.singleton_append]
    | error e =>
      have skipped := not_isStructural_of_assign result
      simp only [Except.map, skipped, ih, List.append_assoc,
        List.singleton_append]
      rfl

/-- A batch is its writes in turn. -/
theorem setEach_eq (loaded : s.stage ≠ .empty) (ws : List (Text × Float)) :
    s.setEach ws =
      (s.withSource (assignAll s.vocabulary s.source ws).1,
        .ok (assignAll s.vocabulary s.source ws).2) := by
  have each := writeEach_withSource loaded s.source ⟨[], []⟩ ws
  rw [withSource_source] at each
  rw [setEach, if_neg loaded, each]
  rfl

/-- A batch of writes to a sheet without source is refused and changes nothing.
Any other batch is carried out to its end: it comes to the sheet that its writes
in turn come to, and reports each write once, by its name when it was written
and by its failure when it was not. When the names are distinct, the writes in
any other order come to the same sheet, and each goes as it would alone. -/
theorem setVariables_order_independent (s : Sheet)
    (values : List (Text × Float)) :
    (s.stage = .empty →
      s.setVariables values = .error .noSource ∧
        s.setEach values = (s, .error .noSource)) ∧
    (s.stage ≠ .empty → ∃ s' a outcomes,
      s.setVariables values = .ok (s', a) ∧ s.setEach values = (s', .ok a) ∧
      perform (attempt write) s values = (s', outcomes) ∧
      a.Accounts values outcomes ∧
      ((values.map Prod.fst).Nodup → ∀ values', values'.Perm values → ∃ a',
        s.setVariables values' = .ok (s', a') ∧
        perform (attempt write) s values' =
          (s', values'.map fun w => (attempt write s w).2) ∧
        a'.Accounts values' (values'.map fun w => (attempt write s w).2))) := by
  constructor
  · intro empty
    exact ⟨setVariables_of_empty empty values, if_pos empty⟩
  · intro loaded
    refine ⟨_, _, _, setVariables_eq loaded values, setEach_eq loaded values,
      perform_write_eq loaded values, accounts_assignAll _ _ values, ?_⟩
    intro distinct values' perm
    obtain ⟨last, outcomes⟩ := assignAll_perm loaded distinct perm
    rw [← last, ← outcomes]
    exact ⟨_, setVariables_eq loaded values', perform_write_eq loaded values',
      accounts_assignAll _ _ values'⟩

/-- Two writes on one line and a write that fails, forwards and backwards. -/
theorem setVariables_order_independent_sample :
    ∃ s' a a',
      ((Sheet.new .standard).load "a = 2 ';' b = 3".toList).setVariables
        [(['a'], 1.5), (['x'], 1), (['b'], 10)] = .ok (s', a) ∧
      ((Sheet.new .standard).load "a = 2 ';' b = 3".toList).setVariables
        [(['b'], 10), (['x'], 1), (['a'], 1.5)] = .ok (s', a') ∧
      s'.source = "a = 1.5 ';' b = 10".toList ∧
      a = ⟨[['a'], ['b']], [.unknownVariable ['x']]⟩ ∧
      a'.failures = [.unknownVariable ['x']] := by
  obtain ⟨s', a, outcomes, batch, -, -, -, permuted⟩ :=
    (setVariables_order_independent
      ((Sheet.new .standard).load "a = 2 ';' b = 3".toList)
      [(['a'], 1.5), (['x'], 1), (['b'], 10)]).2 (by decide)
  obtain ⟨a', backwards, -, accounts⟩ := permuted (by decide)
    [(['b'], 10), (['x'], 1), (['a'], 1.5)]
    (List.reverse_perm [(['a'], 1.5), (['x'], 1), (['b'], 10)])
  have found :
      (((Sheet.new .standard).load "a = 2 ';' b = 3".toList).setVariables
      [(['a'], 1.5), (['x'], 1), (['b'], 10)]).map
      (fun result => (result.1.source, result.2)) =
        .ok ("a = 1.5 ';' b = 10".toList,
          ⟨[['a'], ['b']], [.unknownVariable ['x']]⟩) := by
    decide +kernel
  rw [batch] at found
  obtain ⟨source, report⟩ := Prod.mk.inj (Except.ok.inj found)
  refine ⟨s', a, a', batch, backwards, source, report, ?_⟩
  rw [accounts.failures]
  decide +kernel

end Worksheet.Sheet

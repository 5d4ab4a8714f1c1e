import Mathlib.Tactic.Common
import Worksheet.Proofs.Search.LockStep
import Worksheet.Proofs.Source.Assigned

/-!
# What an evaluation reports

An evaluation that is not answered from the memo tells of the writes that failed
by the names it lists as missing. The list has the names without a declaration.
It does not have the names whose value is not finite: these keep the value of
the evaluation before, and the fitness that is recorded under the new values is
computed from it.
-/

namespace Worksheet

/-- The first statement of the source of a sheet that declares a name. -/
def Sheet.declaration? (s : Sheet) (name : Text) : Option Statement :=
  (LineTable.read s.vocabulary s.source).declaration? name

namespace Sheet

variable {s s' : Sheet} {output : Text} {values : List (Text × Float)}
  {assigned : Assigned}

/-- Writing values changes the source alone. -/
theorem setVariables_ok (h : s.setVariables values = .ok (s', assigned)) :
    s'.config = s.config ∧
      (s'.source, assigned) = assignAll s.vocabulary s.source values := by
  obtain ⟨loaded, rfl, rfl⟩ := of_setVariables h
  exact ⟨config_withSource s _, by rw [source_withSource loaded]⟩

/-- Calculating hands the source to the renderer and keeps the output. -/
theorem calculate_ok (h : s.calculate = (s', .ok output)) :
    s'.config = s.config ∧ s'.source = s.source ∧ s'.output? = some output ∧
      ∃ engine, s.engine = some engine ∧
        engine.renderer engine.requests s.preprocessed = .ok output := by
  unfold calculate at h
  split at h
  · cases h
  next engine hengine =>
  split at h
  · cases h
  next page hpage =>
  split at h
  · cases h
  dsimp only at h
  split at h
  · next answer rendered =>
    cases h
    refine ⟨rfl, ?_, rfl, engine, hengine, rendered⟩
    simp only [source, hpage, Option.elim_some]
  · cases h

theorem preprocessed_congr (config : s'.config = s.config)
    (source : s'.source = s.source) :
    s'.preprocessed = s.preprocessed := by
  rw [preprocessed, preprocessed, vocabulary, vocabulary, config, source]

end Sheet

namespace Evaluator

variable {config : SearchConfig} {e e' : Evaluator} {p : Problem}
  {values : List Float} {answer : Evaluation}

/-- An evaluation that is recorded: the values are written, the sheet is
calculated, and the answer is what its results give. -/
structure Recorded (e : Evaluator) (p : Problem) (values : List Float)
    (e' : Evaluator) (answer : Evaluation) (written : Sheet)
    (assigned : Assigned) (output : Text) : Prop where
  length : values.length = p.designVariables.length
  peek : (e.sync p).memo.peek? (p.key values) = none
  assign : e.sheet.setVariables (p.designVariables.zip values) =
    .ok (written, assigned)
  calculate : written.calculate = (e'.sheet, .ok output)
  missing : answer.missing = assigned.missing
  fitness : answer.fitness =
    fitnessOf p e.config.penalty
      (p.objectives.map (finiteValue? e'.sheet.outcomes))
  objectives : answer.objectives =
    (p.objectives.map (finiteValue? e'.sheet.outcomes)).map
      (·.getD e.config.penalty)
  memo : e'.memo = (e.sync p).missed.memo.insert (p.key values)
    ⟨values, answer.fitness, answer.objectives, answer.iteration⟩

/-- An answer that does not come from the memo is that of an evaluation that is
recorded. -/
theorem recorded_of_fresh (h : e.evaluate p values = (e', .ok answer))
    (fresh : answer.cached = false) :
    ∃ written assigned output,
      Recorded e p values e' answer written assigned output := by
  by_cases length : values.length = p.designVariables.length
  swap
  · rw [evaluate, if_neg length] at h
    cases h
  cases peek : (e.sync p).memo.peek? (p.key values) with
  | some entry =>
    rw [evaluate_of_peek? length peek] at h
    cases h
    cases fresh
  | none =>
    rw [evaluate_of_peek?_none length peek, evaluateFresh] at h
    split at h
    · cases h
    next written assigned assign =>
    split at h
    · cases h
    next sheet output calculate =>
    cases h
    rw [missed, sheet_sync] at assign
    refine ⟨written, assigned, output, length, peek, assign, calculate, rfl, ?_,
      ?_, rfl⟩ <;>
    · rw [← config_sync e p]
      rfl

namespace Recorded

variable {written : Sheet} {assigned : Assigned} {output : Text}

/-- Every value is written under a name. -/
theorem finite_iff (h : Recorded e p values e' answer written assigned output) :
    (∀ w ∈ p.designVariables.zip values, w.2.isFinite = true) ↔
      ∀ x ∈ values, x.isFinite = true := by
  have snd : (p.designVariables.zip values).map Prod.snd = values :=
    List.map_snd_zip h.length.le
  rw [← snd, List.forall_mem_map, snd]

theorem fst_zip (h : Recorded e p values e' answer written assigned output) :
    (p.designVariables.zip values).map Prod.fst = p.designVariables :=
  List.map_fst_zip h.length.ge

/-- The sheet keeps the source that was written, whose text and report are those
of `assignAll`. -/
theorem source_eq (h : Recorded e p values e' answer written assigned output) :
    e'.sheet.config = e.sheet.config ∧ e'.sheet.source = written.source ∧
      (e'.sheet.source, assigned) =
        Sheet.assignAll e.sheet.vocabulary e.sheet.source
          (p.designVariables.zip values) := by
  obtain ⟨config, assignAll⟩ := Sheet.setVariables_ok h.assign
  obtain ⟨config', source, -⟩ := Sheet.calculate_ok h.calculate
  exact ⟨config'.trans config, source, source ▸ assignAll⟩

/-- The renderer is given the source that was written. -/
theorem rendered (h : Recorded e p values e' answer written assigned output) :
    e'.sheet.output? = some output ∧ ∃ engine, e.sheet.engine = some engine ∧
      engine.renderer engine.requests e'.sheet.preprocessed = .ok output := by
  obtain ⟨config, source, kept, engine, hengine, rendered⟩ :=
    Sheet.calculate_ok h.calculate
  refine ⟨kept, engine, ?_, ?_⟩
  · rw [← (Sheet.setVariables_keeps h.assign).2, hengine]
  · rw [Sheet.preprocessed_congr config source, rendered]

end Recorded

/-- An evaluation that is not answered from the memo lists a name as missing
just when its value is finite and it has no declaration, so that all failures
are listed just when all values are finite. A name whose value is not finite
keeps its declaration as it was. For any other name that is not listed, the
first declaration in the source holds the value, provided that the literal is
read alone there. The fitness, which the memo has under the values from now on,
is computed from the output for this source. -/
theorem evaluate_reports_failures {actions : List Action}
    (reached : ReachedBy config actions e) (distinct : p.designVariables.Nodup)
    (h : e.evaluate p values = (e', .ok answer))
    (fresh : answer.cached = false) :
    values.length = p.designVariables.length ∧
    ∃ written assigned,
      e.sheet.setVariables (p.designVariables.zip values) =
        .ok (written, assigned) ∧
      e'.sheet.source = written.source ∧
      ((∀ name, assigned.Failed name → name ∈ answer.missing) ↔
        ∀ x ∈ values, x.isFinite = true) ∧
      (∀ name x, (name, x) ∈ p.designVariables.zip values →
        (name ∈ answer.missing ↔
          x.isFinite = true ∧ e.sheet.declaration? name = none) ∧
        (x.isFinite = false →
          .nonFinite name x ∈ assigned.failures ∧
            e'.sheet.declaration? name = e.sheet.declaration? name) ∧
        (x.isFinite = true → name ∉ answer.missing →
          ∃ s, e.sheet.declaration? name = some s ∧
            (s.Admits (Decimal.plain x) →
              ∃ s', e'.sheet.declaration? name = some s' ∧ s.Revalued s' x ∧
                s'.slot?.map Slot.literal = some (Decimal.plain x)))) ∧
      (∃ engine output, e.sheet.engine = some engine ∧
        engine.renderer engine.requests e'.sheet.preprocessed = .ok output ∧
        e'.sheet.output? = some output ∧
        answer.fitness =
          fitnessOf p config.penalty
            (p.objectives.map (finiteValue? e'.sheet.outcomes))) ∧
      e'.memo.peek? (p.key values) =
        some ⟨values, answer.fitness, answer.objectives, answer.iteration⟩ := by
  obtain ⟨written, assigned, output, recorded⟩ := recorded_of_fresh h fresh
  obtain ⟨sameConfig, source, assignAll⟩ := recorded.source_eq
  obtain ⟨kept, engine, hengine, rendered⟩ := recorded.rendered
  have vocabulary : e'.sheet.vocabulary = e.sheet.vocabulary := by
    rw [Sheet.vocabulary, Sheet.vocabulary, sameConfig]
  rw [Prod.mk.injEq] at assignAll
  obtain ⟨sourceEq, rfl⟩ := assignAll
  have names : ((p.designVariables.zip values).map Prod.fst).Nodup := by
    rwa [recorded.fst_zip]
  refine ⟨recorded.length, written, _, recorded.assign, source, ?_, ?_, ?_, ?_⟩
  · rw [recorded.missing, Sheet.failed_imp_missing_iff names,
      recorded.finite_iff]
  · intro name x mem
    rw [recorded.missing, Sheet.mem_missing_assignAll_iff names mem]
    have after : e'.sheet.declaration? name = (LineTable.read e.sheet.vocabulary
        (Sheet.assignAll e.sheet.vocabulary e.sheet.source
          (p.designVariables.zip values)).1).declaration? name := by
      rw [Sheet.declaration?, vocabulary, sourceEq]
    rw [after]
    refine ⟨.rfl, ?_, ?_⟩
    · intro infinite
      exact ⟨Sheet.nonFinite_mem_assignAll names mem _ _ infinite,
        Sheet.declaration?_assignAll_of_infinite names mem infinite⟩
    · intro finite listed
      obtain ⟨s, declared⟩ :=
        Option.ne_none_iff_exists'.1 fun undeclared =>
          listed ⟨finite, undeclared⟩
      exact ⟨s, declared,
        Sheet.declaration?_assignAll names mem finite declared⟩
  · have sameSearch : e.config = config := reached.lockStep.config_eq
    rw [← sameSearch]
    exact ⟨engine, output, hengine, rendered, kept, recorded.fitness⟩
  · -- The key was not there, so the memo has the new entry under it.
    have step := (reached.lockStep.sync p).missed e.sheet
    have holds := (step.holds (current_sync e p)).insert recorded.peek
      ⟨values, answer.fitness, answer.objectives, answer.iteration⟩
    rw [recorded.memo]
    exact holds.peek?_eq_some_iff.2 (by simp)

/-- A problem of one length and one result. -/
def lengthProblem : Problem := ⟨["L".toList], ["A".toList], [], []⟩

/-- A source with a literal in the braces of its length. -/
def lengthSource (literal : Text) : Text :=
  "L = ?\x7b".toList ++ (literal ++ "\x7d\nA = L+0".toList)

/-- A renderer that gives the literal that the length is declared with as the
result. -/
def lengthRenderer : Renderer := fun _ source =>
  match (LineTable.read .builtIn source).declaration? "L".toList with
  | some s => .ok ("A = ".toList ++ s.slot?.elim [] Slot.literal)
  | none => .error "missing L".toList

/-- An evaluator over a sheet of one length, without aliases, after an
evaluation at `2`. -/
def lengthSample : Evaluator :=
  run
    ⟨((Sheet.new SheetConfig.standard.withoutAliases).load
      (lengthSource ['5'])).setRenderer lengthRenderer,
      .standard, .empty none, .start, [], 0⟩
    [.evaluate lengthProblem [2]]

theorem lengthSample_reachedBy :
    ReachedBy .standard [.evaluate lengthProblem [2]] lengthSample :=
  ⟨_, _, rfl, rfl⟩

/-- An evaluation at `3` leaves `3` in the declaration. -/
theorem evaluate_reports_failures_sample :
    ReachedBy .standard [.evaluate lengthProblem [2]] lengthSample ∧
      lengthProblem.designVariables.Nodup ∧
      ∃ e', lengthSample.evaluate lengthProblem [3] =
        (e', .ok ⟨3, [3], false, 2, []⟩) ∧
        ∃ s', e'.sheet.declaration? "L".toList = some s' ∧ s'.value? = some 3 ∧
          s'.slot?.map Slot.literal = some (Decimal.plain 3) := by
  have distinct : lengthProblem.designVariables.Nodup := by decide
  have answered : (lengthSample.evaluate lengthProblem [3]).2 =
      .ok ⟨3, [3], false, 2, []⟩ := by
    decide +kernel
  have evaluated : lengthSample.evaluate lengthProblem [3] =
      ((lengthSample.evaluate lengthProblem [3]).1,
       .ok ⟨3, [3], false, 2, []⟩) :=
    Prod.ext rfl answered
  obtain ⟨-, written, assigned, -, -, -, each, -⟩ :=
    evaluate_reports_failures lengthSample_reachedBy distinct evaluated rfl
  obtain ⟨-, -, held⟩ := each "L".toList 3 (by simp [lengthProblem])
  obtain ⟨s, declared, taken⟩ := held (by decide +kernel) (by decide)
  have body : (lengthSample.sheet.declaration? "L".toList).map Statement.body =
      some "?\x7b2\x7d".toList := by decide +kernel
  rw [declared, Option.map_some, Option.some.injEq] at body
  have braced : Vocabulary.Braced s.body := by
    rw [body]
    exact ⟨[], ['2'], [], rfl, by decide, rfl⟩
  obtain ⟨s', after, revalued, literal⟩ :=
    taken (Statement.admits_of_braced braced)
  exact ⟨lengthSample_reachedBy, distinct, _, evaluated, s', after,
    revalued.value, literal⟩

/-- A value that is no number is not written; no name is listed as missing, and
the fitness that is recorded for it is that of the value before. -/
theorem evaluate_conceals_nonFinite :
    ReachedBy .standard [.evaluate lengthProblem [2]] lengthSample ∧
      lengthProblem.designVariables.Nodup ∧
      ∃ e' written assigned,
        lengthSample.evaluate lengthProblem [Sheet.noNumber] =
          (e', .ok ⟨2, [2], false, 2, []⟩) ∧
        lengthSample.sheet.setVariables
          (lengthProblem.designVariables.zip [Sheet.noNumber]) =
          .ok (written, assigned) ∧
        assigned.Failed "L".toList ∧ e'.sheet.source = lengthSource ['2'] := by
  have answered : (lengthSample.evaluate lengthProblem [Sheet.noNumber]).2 =
      .ok ⟨2, [2], false, 2, []⟩ := by
    decide +kernel
  have source :
      (lengthSample.evaluate lengthProblem [Sheet.noNumber]).1.sheet.source =
      lengthSource ['2'] := by
    decide +kernel
  have report : (lengthSample.sheet.setVariables
      (lengthProblem.designVariables.zip [Sheet.noNumber])).map Prod.snd =
        .ok ⟨[], [.nonFinite "L".toList Sheet.noNumber]⟩ := by
    decide +kernel
  cases assign : lengthSample.sheet.setVariables
      (lengthProblem.designVariables.zip [Sheet.noNumber]) with
  | error err =>
    rw [assign] at report
    cases report
  | ok result =>
    obtain ⟨written, assigned⟩ := result
    rw [assign] at report
    obtain rfl : assigned = _ := Except.ok.inj report
    exact ⟨lengthSample_reachedBy, by decide, _, _, _, Prod.ext rfl answered,
      rfl, .inr ⟨_, List.mem_singleton.2 rfl⟩, source⟩

end Evaluator
end Worksheet

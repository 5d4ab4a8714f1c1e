import Mathlib.Data.List.Induction
import Mathlib.Tactic.Common
import Worksheet.Proofs.Search.LockStep
import Worksheet.Proofs.Source.Overwriting

/-!
# Evaluations that leave no trace

An evaluator writes the values of each evaluation over those of the one before,
and never restores the source that it started with. When the first declarations
of the design variables are inputs in braces, and the renderer is a function of
the source alone, an evaluation still finds what it would find in the first
source.
-/

namespace Worksheet

open Text

/-- What an evaluation finds out about values. -/
structure Findings where
  fitness : Float
  objectives : List Float
  missing : List Text
  deriving DecidableEq

def Evaluation.findings (a : Evaluation) : Findings :=
  ⟨a.fitness, a.objectives, a.missing⟩

/-- The output that a renderer without memory gives for a source. -/
def rendering (c : SheetConfig) (render : Text → Except Text Text)
    (source : Text) :
    Except SheetError Text :=
  if isAllBlank source then .error .noSource
  else
    (render (UnitAlias.expand c.vocabulary c.aliases source)).mapError
      .renderFailed

/-- The results that a source and its output give. -/
def outcomesOf (c : SheetConfig) (source output : Text) : List Outcome :=
  Sheet.outcomes ⟨c, some ⟨source, some output⟩, none, 0⟩

/-- An answer with the findings of another one has its fitness and its
objectives. -/
theorem exists_of_findings_eq {result : Except SheetError Evaluation}
    {first : Evaluation}
    (same : result.map Evaluation.findings = .ok first.findings) :
    ∃ again, result = .ok again ∧ again.fitness = first.fitness ∧
      again.objectives = first.objectives := by
  cases result with
  | error err => cases same
  | ok again =>
    simp only [Except.map, Evaluation.findings, Except.ok.injEq,
      Findings.mk.injEq] at same
    exact ⟨again, rfl, same.1, same.2.1⟩

/-- What values give for a problem when they are written into a source. -/
def findings (c : SheetConfig) (render : Text → Except Text Text)
    (config : SearchConfig) (source : Text) (p : Problem)
    (values : List Float) : Except SheetError Findings :=
  let (written, assigned) :=
    Sheet.assignAll c.vocabulary source (p.designVariables.zip values)
  (rendering c render written).map fun output =>
    let found :=
      p.objectives.map (Evaluator.finiteValue? (outcomesOf c written output))
    ⟨Evaluator.fitnessOf p config.penalty found,
      found.map (·.getD config.penalty), assigned.missing⟩

/-! ## Sheets with a renderer without memory -/

namespace Sheet

/-- A sheet holds a source, and its renderer is a function of what it is
given. -/
structure Holds (c : SheetConfig) (render : Text → Except Text Text)
    (source : Text) (s : Sheet) :
    Prop where
  config : s.config = c
  page : ∃ output, s.page = some ⟨source, output⟩
  engine : ∃ requests, s.engine = some ⟨fun _ => render, requests⟩

variable {c : SheetConfig} {render : Text → Except Text Text} {source : Text}
  {s : Sheet}

theorem Holds.source_eq (h : s.Holds c render source) : s.source = source := by
  obtain ⟨output, page⟩ := h.page
  rw [Sheet.source, page]
  rfl

theorem Holds.setVariables (h : s.Holds c render source)
    (values : List (Text × Float)) :
    ∃ s', s.setVariables values =
      .ok (s', (assignAll c.vocabulary source values).2) ∧
      s'.Holds c render (assignAll c.vocabulary source values).1 := by
  obtain ⟨output, page⟩ := h.page
  refine ⟨{ s with page := some ⟨(assignAll c.vocabulary source values).1,
    output⟩ }, ?_, h.config,
    ⟨output, rfl⟩, h.engine⟩
  simp only [Sheet.setVariables, page, vocabulary, h.config]

/-- Results depend on the configuration, the source and the output. -/
theorem outcomes_eq {output : Text} (config : s.config = c)
    (page : s.page = some ⟨source, some output⟩) :
    s.outcomes = outcomesOf c source output := by
  simp only [outcomesOf, outcomes, blocks, output?, resultNames, equations,
    Sheet.source, vocabulary, page, config]

/-- Calculating keeps the source; the output is that of the renderer for this
source. -/
theorem Holds.calculate (h : s.Holds c render source) :
    s.calculate.1.Holds c render source ∧
      s.calculate.2 = rendering c render source ∧
      ∀ output, rendering c render source = .ok output →
        s.calculate.1.outcomes = outcomesOf c source output := by
  obtain ⟨last, page⟩ := h.page
  obtain ⟨requests, engine⟩ := h.engine
  have request :
      s.preprocessed = UnitAlias.expand c.vocabulary c.aliases source := by
    rw [preprocessed, h.source_eq, vocabulary, h.config]
  simp only [Sheet.calculate, engine, page, request, rendering]
  split
  · exact ⟨h, rfl, fun _ hok => by cases hok⟩
  cases render (UnitAlias.expand c.vocabulary c.aliases source) with
  | ok output =>
    refine ⟨⟨h.config, ⟨some output, rfl⟩, ⟨_, rfl⟩⟩, rfl, ?_⟩
    rintro _ ⟨rfl⟩
    exact outcomes_eq h.config rfl
  | error message =>
    exact ⟨⟨h.config, ⟨last, rfl⟩, ⟨_, rfl⟩⟩, rfl, fun _ hok => by cases hok⟩

end Sheet

namespace Evaluator

variable {c : SheetConfig} {render : Text → Except Text Text}
  {config : SearchConfig} {source : Text} {p : Problem} {e start : Evaluator}
  {values : List Float}

/-! ## One evaluation -/

/-- An evaluation that looks at the sheet finds what the values give for the
source there. -/
theorem evaluateFresh_of_holds (h : e.sheet.Holds c render source) (p : Problem)
    (values : List Float) (key : Text) :
    (e.evaluateFresh p values key).1.sheet.Holds c render
        (Sheet.assignAll c.vocabulary source (p.designVariables.zip values)).1 ∧
      (e.evaluateFresh p values key).1.config = e.config ∧
      (e.evaluateFresh p values key).2.map Evaluation.findings =
        findings c render e.config source p values := by
  obtain ⟨written, assign, holds⟩ :=
    h.setVariables (p.designVariables.zip values)
  obtain ⟨holds', answer, outcomes⟩ := holds.calculate
  unfold evaluateFresh findings
  simp only [assign]
  generalize written.calculate = result at holds' answer outcomes ⊢
  obtain ⟨sheet, output⟩ := result
  simp only at holds' answer outcomes
  subst answer
  split
  · next err hcalc =>
    rw [Prod.mk.injEq] at hcalc
    obtain ⟨rfl, failed⟩ := hcalc
    rw [failed]
    exact ⟨holds', rfl, rfl⟩
  · next output hcalc =>
    rw [Prod.mk.injEq] at hcalc
    obtain ⟨rfl, rendered⟩ := hcalc
    rw [rendered, outcomes output rendered]
    exact ⟨holds', rfl, rfl⟩

/-- Whether an evaluation was answered from the memo. -/
def FromMemo (result : Evaluator × Except SheetError Evaluation) : Prop :=
  ∃ answer, result.2 = .ok answer ∧ answer.cached = true

/-- An evaluation leaves the sheet alone, or it writes the values and finds what
they give. -/
theorem evaluate_of_holds (h : e.sheet.Holds c render source) (p : Problem)
    (values : List Float) :
    (e.evaluate p values).1.config = e.config ∧
      ((values.length ≠ p.designVariables.length ∨
          FromMemo (e.evaluate p values)) ∧
          (e.evaluate p values).1.sheet = e.sheet ∨
        values.length = p.designVariables.length ∧
          (e.evaluate p values).1.sheet.Holds c render
            (Sheet.assignAll c.vocabulary source
              (p.designVariables.zip values)).1 ∧
          (e.evaluate p values).2.map Evaluation.findings =
            findings c render e.config source p values) := by
  have synced := sheet_sync e p
  have sameConfig := config_sync e p
  unfold evaluate
  split
  next length =>
    dsimp only
    split
    · next entry _ =>
        exact ⟨sameConfig, .inl ⟨.inr ⟨.ofEntry entry, rfl, rfl⟩, synced⟩⟩
    · have counted :
          ({ e.sync p with memo := (e.sync p).memo.count (p.key values) } :
            Evaluator).sheet.Holds c render source := synced.symm ▸ h
      obtain ⟨holds, same, found⟩ :=
        evaluateFresh_of_holds counted p values (p.key values)
      rw [sameConfig] at same found
      exact ⟨same, .inr ⟨length, holds, found⟩⟩
  next length => exact ⟨rfl, .inl ⟨.inl length, rfl⟩⟩

/-! ## Runs -/

/-- The evaluator after evaluations of one problem. -/
def after (e : Evaluator) (p : Problem) (vectors : List (List Float)) :
    Evaluator :=
  e.run (vectors.map (.evaluate p))

theorem after_append_singleton (e : Evaluator) (p : Problem)
    (vectors : List (List Float)) (values : List Float) :
    e.after p (vectors ++ [values]) =
      ((e.after p vectors).evaluate p values).1 := by
  rw [after, List.map_append, List.map_singleton, run_append_singleton]
  rfl

/-- A new evaluator over a sheet with a source and a renderer without memory. -/
def StartsWith (c : SheetConfig) (render : Text → Except Text Text)
    (config : SearchConfig) (source : Text) (start : Evaluator) : Prop :=
  ∃ sheet : Sheet, sheet.Holds c render source ∧ new sheet config = .ok start

/-- What the sheet of an evaluator holds during a run: the first source after
writes to the names. -/
structure Overwrites (c : SheetConfig) (render : Text → Except Text Text)
    (config : SearchConfig) (source : Text) (names : List Text)
    (e : Evaluator) : Prop where
  config_eq : e.config = config
  holds : ∃ writes, Sheet.Writes names writes ∧
    e.sheet.Holds c render (Sheet.assignAll c.vocabulary source writes).1

theorem StartsWith.holds (h : StartsWith c render config source start) :
    start.sheet.Holds c render source ∧ start.config = config := by
  obtain ⟨sheet, holds, hstart⟩ := h
  unfold new SearchConfig.validate at hstart
  split at hstart
  · next valid hvalid =>
    split at hvalid
    · cases hvalid
    cases hvalid
    cases hstart
    exact ⟨holds, rfl⟩
  · cases hstart

theorem StartsWith.overwrites (h : StartsWith c render config source start)
    (names : List Text) :
    start.Overwrites c render config source names := by
  refine ⟨h.holds.2, [], ?_, h.holds.1⟩
  intro w hw
  cases hw

theorem writes_zip (names : List Text)
    (finite : ∀ x ∈ values, x.isFinite = true) :
    Sheet.Writes names (names.zip values) := by
  rintro ⟨name, x⟩ hw
  exact ⟨(List.of_mem_zip hw).1, finite x (List.of_mem_zip hw).2⟩

section

variable
  (braced : ∀ name ∈ p.designVariables, InBraces c.vocabulary source name)

include braced

/-- What was written before is forgotten when values are written to all
design variables. -/
theorem assignAll_zip {earlier : List (Text × Float)}
    (writes : Sheet.Writes p.designVariables earlier)
    (finite : ∀ x ∈ values, x.isFinite = true)
    (length : values.length = p.designVariables.length) :
    Sheet.assignAll c.vocabulary (Sheet.assignAll c.vocabulary source earlier).1
        (p.designVariables.zip values) =
      Sheet.assignAll c.vocabulary source (p.designVariables.zip values) := by
  have names :
      (p.designVariables.zip values).map Prod.fst = p.designVariables :=
    List.map_fst_zip length.ge
  apply Sheet.assignAll_assignAll
  · rwa [names]
  · intro w hw
    exact ((writes_zip p.designVariables finite) w hw).2
  · rwa [names]

/-- An evaluation that looks at the sheet finds what the values give for the
first source, and leaves that source with these values. -/
theorem Overwrites.evaluate_fresh
    (h : e.Overwrites c render config source p.designVariables)
    (finite : ∀ x ∈ values, x.isFinite = true)
    (length : values.length = p.designVariables.length)
    (fresh : ¬FromMemo (e.evaluate p values)) :
    (e.evaluate p values).1.sheet.Holds c render
        (Sheet.assignAll c.vocabulary source (p.designVariables.zip values)).1 ∧
      (e.evaluate p values).2.map Evaluation.findings =
        findings c render config source p values := by
  obtain ⟨earlier, writes, holds⟩ := h.holds
  obtain ⟨-, ⟨different | cached, -⟩ | ⟨-, holds', found⟩⟩ :=
    evaluate_of_holds holds p values
  · exact absurd length different
  · exact absurd cached fresh
  · have absorbed := assignAll_zip braced writes finite length
    rw [findings, absorbed, ← findings, h.config_eq] at found
    rw [absorbed] at holds'
    exact ⟨holds', found⟩

theorem Overwrites.evaluate
    (h : e.Overwrites c render config source p.designVariables)
    (finite : ∀ x ∈ values, x.isFinite = true) :
    (e.evaluate p values).1.Overwrites c render config source
      p.designVariables := by
  obtain ⟨earlier, writes, holds⟩ := h.holds
  obtain ⟨same, ⟨-, sheet⟩ | ⟨length, holds', -⟩⟩ :=
    evaluate_of_holds holds p values
  · exact ⟨same.trans h.config_eq, earlier, writes, sheet.symm ▸ holds⟩
  · rw [assignAll_zip braced writes finite length] at holds'
    exact ⟨same.trans h.config_eq, _, writes_zip p.designVariables finite,
      holds'⟩

/-- During a run the sheet holds the first source after writes to the
design variables. -/
theorem Overwrites.after
    (h : e.Overwrites c render config source p.designVariables)
    {vectors : List (List Float)}
    (finite : ∀ xs ∈ vectors, ∀ x ∈ xs, x.isFinite = true) :
    (e.after p vectors).Overwrites c render config source
      p.designVariables := by
  induction vectors using List.reverseRecOn with
  | nil => exact h
  | append_singleton vectors xs ih =>
    rw [after_append_singleton]
    have before := ih fun ys hys => finite ys (List.mem_append_left _ hys)
    exact before.evaluate braced (finite xs (by simp))

end

/-- An evaluation that is not answered from the memo leaves the source that its
values give when they are written into the first source, and finds what that
source gives, whatever was evaluated before. Values that are evaluated once
more, after they were evicted, give what they gave first. -/
theorem evaluate_path_independent
    (starts : StartsWith c render config source start)
    (braced : ∀ name ∈ p.designVariables, InBraces c.vocabulary source name)
    {vectors : List (List Float)}
    (finite : ∀ xs ∈ vectors, ∀ x ∈ xs, x.isFinite = true)
    (finite' : ∀ x ∈ values, x.isFinite = true)
    (length : values.length = p.designVariables.length)
    (fresh : ¬FromMemo ((start.after p vectors).evaluate p values)) :
    (∃ written assigned,
      start.sheet.setVariables (p.designVariables.zip values) =
        .ok (written, assigned) ∧
      ((start.after p vectors).evaluate p values).1.sheet.source =
        written.source) ∧
    ((start.after p vectors).evaluate p values).2.map Evaluation.findings =
      findings c render config source p values ∧
    ∀ before between first, vectors = before ++ values :: between →
      ((start.after p before).evaluate p values).2 = .ok first →
      first.cached = false →
      ∃ again, ((start.after p vectors).evaluate p values).2 = .ok again ∧
        again.fitness = first.fitness ∧
        again.objectives = first.objectives := by
  have overwrites := starts.overwrites p.designVariables
  obtain ⟨holds, found⟩ :=
    (overwrites.after braced finite).evaluate_fresh braced finite' length fresh
  obtain ⟨written, assign, holds'⟩ :=
    starts.holds.1.setVariables (p.designVariables.zip values)
  refine ⟨⟨written, _, assign, holds.source_eq.trans holds'.source_eq.symm⟩,
    found, ?_⟩
  rintro before between first rfl answered uncached
  have fresh' : ¬FromMemo ((start.after p before).evaluate p values) := by
    rintro ⟨answer, hanswer, cached⟩
    rw [answered] at hanswer
    cases hanswer
    rw [uncached] at cached
    cases cached
  have finiteBefore : ∀ xs ∈ before, ∀ x ∈ xs, x.isFinite = true := by
    intro xs hxs
    exact finite xs (List.mem_append_left _ hxs)
  -- Both times the values give the same for the first source.
  obtain ⟨-, found'⟩ :=
    (overwrites.after braced finiteBefore).evaluate_fresh braced finite'
      length fresh'
  rw [← found', answered] at found
  exact exists_of_findings_eq found

/-- A source with a literal in the braces of its input. -/
def bracedSource (literal : Text) : Text :=
  "x = ?\x7b".toList ++ (literal ++ "\x7d\ny = x*2".toList)

/-- A new evaluator with room for one evaluation, over a sheet whose renderer
gives back what it is given. -/
def bracedSample : Evaluator :=
  ⟨((Sheet.new .standard).load (bracedSource ['1'])).setRenderer
      fun _ s => .ok s,
    ⟨1, 1, 2, 2, some 1⟩, .empty (some 1), .start, [], 0⟩

/-- After `2` and `3` the evaluation of `2` is evicted; evaluated again, it
leaves the source with `2` in the braces and finds what that source gives. -/
theorem evaluate_path_independent_sample :
    StartsWith .standard .ok bracedSample.config
      (bracedSource ['1']) bracedSample ∧
      ¬FromMemo
        ((bracedSample.after sampleProblem [[2], [3]]).evaluate sampleProblem
          [2]) ∧
      ((bracedSample.after sampleProblem [[2], [3]]).evaluate sampleProblem
        [2]).1.sheet.source =
        bracedSource ['2'] ∧
      ((bracedSample.after sampleProblem [[2], [3]]).evaluate sampleProblem
          [2]).2.map Evaluation.findings =
        findings .standard .ok bracedSample.config
          (bracedSource ['1']) sampleProblem [2] := by
  have starts : StartsWith .standard .ok bracedSample.config
      (bracedSource ['1']) bracedSample :=
    ⟨bracedSample.sheet, ⟨rfl, ⟨none, rfl⟩, ⟨[], rfl⟩⟩, rfl⟩
  have declared :
      (LineTable.read .builtIn (bracedSource ['1'])).declaration? ['x'] =
      some (.declared .input ['x']
        (some ⟨"x = ?\x7b".toList, ['1'], "\x7d".toList⟩) []
        "?\x7b1\x7d".toList) := by
    decide +kernel
  have braced : ∀ name ∈ sampleProblem.designVariables,
      InBraces .builtIn (bracedSource ['1']) name := by
    intro name hname s hs
    obtain rfl : name = ['x'] := List.mem_singleton.1 hname
    rw [declared, Option.some.injEq] at hs
    rw [← hs]
    exact ⟨[], ['1'], [], rfl, by decide, rfl⟩
  have finite : ∀ xs ∈ ([[2], [3]] : List (List Float)), ∀ x ∈ xs,
      x.isFinite = true := by
    decide +kernel
  have finite' : ∀ x ∈ ([2] : List Float), x.isFinite = true := by
    decide +kernel
  have fresh :
      ¬FromMemo
        ((bracedSample.after sampleProblem [[2], [3]]).evaluate sampleProblem
          [2]) := by
    have uncached :
        (match
          ((bracedSample.after sampleProblem [[2], [3]]).evaluate sampleProblem
            [2]).2 with
      | .ok answer => answer.cached
      | .error _ => false) = false := by decide +kernel
    rintro ⟨answer, hanswer, cached⟩
    rw [hanswer] at uncached
    exact absurd (cached.symm.trans uncached) (by decide)
  obtain ⟨⟨written, assigned, assign, source⟩, found, -⟩ :=
    evaluate_path_independent starts braced finite finite' rfl fresh
  have once :
      (bracedSample.sheet.setVariables
        (sampleProblem.designVariables.zip [2])).map
      (fun result => result.1.source) = .ok (bracedSource ['2']) := by
    decide +kernel
  rw [assign] at once
  exact ⟨starts, fresh, source.trans (Except.ok.inj once), found⟩

end Evaluator
end Worksheet

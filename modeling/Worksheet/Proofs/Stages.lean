import Worksheet.Proofs.Source.Batch

/-!
# Stages of a sheet

A sheet can be loaded, given a renderer, written to and calculated, in any order
and any number of times. Over every run from a new sheet it is empty until a
source is loaded, and rendered as long as it has an output, which is what the
renderer gave at the last calculation that succeeded since the last loading. It
counts the calls of renderers, those that failed included. The same holds where
source, output, stage and count are fields of their own that each operation
changes one by one.
-/

namespace Worksheet.Sheet

open Text

/-- What can be done with a sheet. -/
inductive Action where
  | load (source : Text)
  | setRenderer (r : Renderer)
  | setVariable (name : Text) (value : Float)
  | setVariables (values : List (Text × Float))
  | calculate

/-- What is answered to an action. -/
inductive Answer where
  | done
  /-- One write, with its failure if it failed. -/
  | written (failure : Option SheetError)
  | assigned (result : Except SheetError Assigned)
  | calculated (result : Except SheetError Text)

/-- Whether an answer comes from a renderer, as an output or as a failure. -/
def Answer.fromRenderer : Answer → Bool
  | .calculated (.ok _) => true
  | .calculated (.error (.renderFailed _)) => true
  | _ => false

/-- The sheet after an action, with the answer. -/
def act (s : Sheet) : Action → Sheet × Answer
  | .load source => (s.load source, .done)
  | .setRenderer r => (s.setRenderer r, .done)
  | .setVariable name value =>
    let (next, failure) := attempt write s (name, value)
    (next, .written failure)
  | .setVariables values =>
    match s.setVariables values with
    | .ok (next, assigned) => (next, .assigned (.ok assigned))
    | .error e => (s, .assigned (.error e))
  | .calculate =>
    let (next, result) := s.calculate
    (next, .calculated result)

/-- A new sheet after actions, the first of the list first. -/
def after (config : SheetConfig) (actions : List Action) : Sheet :=
  (perform act (new config) actions).1

variable {s : Sheet}

/-! ## One action -/

/-- The sheet after a call of its renderer, whatever that gave. -/
def called (s : Sheet) (engine : Engine) : Sheet :=
  { s with
    engine := some
      { engine with requests := engine.requests ++ [s.preprocessed] },
    renders := s.renders + 1 }

/-- The sheet with an output for its source. -/
def withOutput (s : Sheet) (output : Text) : Sheet :=
  { s with page := s.page.map fun page => { page with output := some output } }

@[simp] theorem source_withOutput (s : Sheet) (output : Text) :
    (s.withOutput output).source = s.source := by
  rw [source, source, withOutput, Option.elim_map]
  rfl

theorem output?_withOutput (loaded : s.stage ≠ .empty) (output : Text) :
    (s.withOutput output).output? = some output := by
  obtain ⟨page, hpage⟩ := exists_page loaded
  rw [output?, withOutput, hpage]
  rfl

theorem stage_withOutput (loaded : s.stage ≠ .empty) (output : Text) :
    (s.withOutput output).stage = .rendered := by
  obtain ⟨page, hpage⟩ := exists_page loaded
  rw [stage, withOutput, hpage]
  rfl

theorem stage_eq_rendered_iff : s.stage = .rendered ↔ s.output?.isSome := by
  rw [stage, output?]
  cases s.page with
  | none => simp
  | some page =>
    obtain ⟨source, output⟩ := page
    cases output <;> simp

/-- Nothing blank is rendered, an empty sheet above all. -/
theorem loaded_of_source (shown : isAllBlank s.source = false) :
    s.stage ≠ .empty := by
  intro empty
  rw [source, stage_eq_empty_iff.1 empty] at shown
  cases shown

/-- The renderer of the sheet can be called and gives an answer to the source
with its aliases expanded. -/
def Renders (s : Sheet) (engine : Engine) (answer : Except Text Text) : Prop :=
  s.engine = some engine ∧ isAllBlank s.source = false ∧
    engine.renderer engine.requests s.preprocessed = answer

theorem Renders.loaded {engine : Engine} {answer : Except Text Text}
    (h : s.Renders engine answer) :
    s.stage ≠ .empty :=
  loaded_of_source h.2.1

theorem calculate_of_output {engine : Engine} {output : Text}
    (h : s.Renders engine (.ok output)) :
    s.calculate = ((s.called engine).withOutput output, .ok output) := by
  obtain ⟨page, hpage⟩ := exists_page h.loaded
  obtain ⟨installed, shown, answer⟩ := h
  rw [source, hpage, Option.elim_some] at shown
  simp only [calculate, installed, hpage, shown, answer, withOutput, called,
    Option.map_some, Bool.false_eq_true, if_false]

theorem calculate_of_failure {engine : Engine} {message : Text}
    (h : s.Renders engine (.error message)) :
    s.calculate = (s.called engine, .error (.renderFailed message)) := by
  obtain ⟨page, hpage⟩ := exists_page h.loaded
  obtain ⟨installed, shown, answer⟩ := h
  rw [source, hpage, Option.elim_some] at shown
  simp only [calculate, installed, hpage, shown, answer, called,
    Bool.false_eq_true, if_false]

theorem calculate_of_no_engine (none : s.engine = none) :
    s.calculate = (s, .error .noRenderer) := by
  rw [calculate, none]

theorem calculate_of_blank {engine : Engine}
    (installed : s.engine = some engine) (blank : isAllBlank s.source = true) :
    s.calculate = (s, .error .noSource) := by
  rw [calculate, installed]
  cases hpage : s.page with
  | none => rfl
  | some page =>
    rw [source, hpage, Option.elim_some] at blank
    exact if_pos blank

/-- All that an action can do to a sheet. -/
inductive Steps (s : Sheet) : Action → Sheet × Answer → Prop where
  | load (source : Text) : Steps s (.load source) (s.load source, .done)
  | setRenderer (r : Renderer) : Steps s (.setRenderer r)
    (s.setRenderer r, .done)
  | setVariable (name : Text) (value : Float) (source : Text)
    (failure : Option SheetError)
    (kept : failure ≠ none → source = s.source) :
    Steps s (.setVariable name value) (s.withSource source, .written failure)
  | setVariables (values : List (Text × Float)) (source : Text)
    (result : Except SheetError Assigned) :
    Steps s (.setVariables values) (s.withSource source, .assigned result)
  | notCalled (e : SheetError)
    (own : (Answer.calculated (.error e)).fromRenderer = false)
    (unable : ∀ engine answer, ¬s.Renders engine answer) :
    Steps s .calculate (s, .calculated (.error e))
  | failed (engine : Engine) (message : Text)
    (renders : s.Renders engine (.error message)) :
    Steps s .calculate (s.called engine,
      .calculated (.error (.renderFailed message)))
  | rendered (engine : Engine) (output : Text)
    (renders : s.Renders engine (.ok output)) :
    Steps s .calculate ((s.called engine).withOutput output,
      .calculated (.ok output))

theorem of_setVariable {s' : Sheet} {name : Text} {value : Float}
    (h : s.setVariable name value = .ok s') :
    ∃ source, s' = s.withSource source := by
  rw [setVariable] at h
  split at h
  · cases h
  next page hpage =>
  split at h
  · next source _ =>
    cases h
    exact ⟨source, by rw [withSource, hpage, Option.map_some]⟩
  · cases h

theorem act_setVariable (s : Sheet) (name : Text) (value : Float) :
    s.act (.setVariable name value) =
      ((attempt write s (name, value)).1,
       .written (attempt write s (name, value)).2) := rfl

theorem steps_setVariable (s : Sheet) (name : Text) (value : Float) :
    s.Steps (.setVariable name value) (s.act (.setVariable name value)) := by
  rw [act_setVariable]
  cases result : write s (name, value) with
  | ok next =>
    obtain ⟨source, rfl⟩ := of_setVariable result
    rw [attempt_of_ok result]
    exact .setVariable name value source none fun failed => absurd rfl failed
  | error e =>
    have same :=
      Steps.setVariable (s := s) name value s.source (some e) fun _ => rfl
    rw [withSource_source] at same
    rwa [attempt_of_error result]

theorem steps_setVariables (s : Sheet) (values : List (Text × Float)) :
    s.Steps (.setVariables values) (s.act (.setVariables values)) := by
  rw [act]
  split
  · next next assigned h =>
    obtain ⟨-, rfl, -⟩ := of_setVariables h
    exact .setVariables values _ _
  · next e h =>
    have same := Steps.setVariables (s := s) values s.source (.error e)
    rwa [withSource_source] at same

theorem steps_calculate (s : Sheet) :
    s.Steps .calculate (s.act .calculate) := by
  rw [act]
  cases installed : s.engine with
  | none =>
    rw [calculate_of_no_engine installed]
    refine .notCalled .noRenderer rfl ?_
    rintro engine answer ⟨other, -⟩
    rw [installed] at other
    cases other
  | some engine =>
    cases shown : isAllBlank s.source with
    | true =>
      rw [calculate_of_blank installed shown]
      refine .notCalled .noSource rfl ?_
      rintro _ answer ⟨-, other, -⟩
      rw [shown] at other
      cases other
    | false =>
      cases answer : engine.renderer engine.requests s.preprocessed with
      | ok output =>
        have renders : s.Renders engine (.ok output) :=
          ⟨installed, shown, answer⟩
        rw [calculate_of_output renders]
        exact .rendered engine output renders
      | error message =>
        have renders : s.Renders engine (.error message) :=
          ⟨installed, shown, answer⟩
        rw [calculate_of_failure renders]
        exact .failed engine message renders

theorem act_steps (s : Sheet) (a : Action) : s.Steps a (s.act a) := by
  cases a with
  | load source => exact .load source
  | setRenderer r => exact .setRenderer r
  | setVariable name value => exact steps_setVariable s name value
  | setVariables values => exact steps_setVariables s values
  | calculate => exact steps_calculate s

/-! ## Stage, output and count after an action -/

theorem Renders.answer_eq {engine engine' : Engine}
    {answer answer' : Except Text Text} (h : s.Renders engine answer)
    (h' : s.Renders engine' answer') : answer = answer' := by
  obtain ⟨installed, -, rfl⟩ := h
  obtain ⟨installed', -, rfl⟩ := h'
  rw [installed, Option.some.injEq] at installed'
  rw [installed']

namespace Steps

variable {a : Action} {result : Sheet × Answer}

theorem stage_eq_empty_iff (step : s.Steps a result) :
    result.1.stage = .empty ↔ s.stage = .empty ∧
      ∀ source, a ≠ .load source := by
  cases step with
  | load source =>
    have loaded : (s.load source).stage = .loaded := rfl
    simp [loaded]
  | setRenderer r =>
    have same : (s.setRenderer r).stage = s.stage := rfl
    simp [same]
  | setVariable | setVariables | notCalled => simp
  | failed engine =>
    have same : (s.called engine).stage = s.stage := rfl
    simp [same]
  | rendered engine output renders =>
    have loaded : (s.called engine).stage ≠ .empty := renders.loaded
    simp [stage_withOutput loaded, renders.loaded]

/-- An action gives the output when it is a calculation that succeeds, and else
keeps it unless it loads a source. -/
theorem output?_eq_some_iff (step : s.Steps a result) (output : Text) :
    result.1.output? = some output ↔
      (a = .calculate ∧ ∃ engine, s.Renders engine (.ok output)) ∨
      (s.output? = some output ∧ (∀ source, a ≠ .load source) ∧
        (a = .calculate → ∀ engine other, ¬s.Renders engine (.ok other))) := by
  cases step with
  | load source =>
    have dropped : (s.load source).output? = none := rfl
    simp [dropped]
  | setRenderer r =>
    have same : (s.setRenderer r).output? = s.output? := rfl
    simp [same]
  | setVariable | setVariables => simp
  | notCalled e own unable => simp [unable]
  | failed engine message renders =>
    have never : ∀ engine other, ¬s.Renders engine (.ok other) := by
      intro engine other h
      cases renders.answer_eq h
    have same : (s.called engine).output? = s.output? := rfl
    simp [never, same]
  | rendered engine given renders =>
    have loaded : (s.called engine).stage ≠ .empty := renders.loaded
    rw [output?_withOutput loaded, Option.some.injEq]
    -- The renderer gives one answer, so that another output is neither given
    -- nor kept.
    constructor
    · rintro rfl
      exact .inl ⟨rfl, engine, renders⟩
    · rintro (⟨-, engine', other⟩ | ⟨-, -, never⟩)
      · exact Except.ok.inj (renders.answer_eq other)
      · exact absurd renders (never rfl engine given)

theorem renders_eq (step : s.Steps a result) :
    result.1.renders = s.renders + if result.2.fromRenderer then 1 else 0 := by
  cases step with
  | load | setRenderer | setVariable | setVariables => rfl
  | notCalled e own => rw [own]; rfl
  | failed | rendered => rfl

/-- A calculation is answered by the renderer when there is one and something to
render. -/
theorem fromRenderer_iff (step : s.Steps .calculate result) :
    result.2.fromRenderer = true ↔
      (∃ engine, s.engine = some engine) ∧ isAllBlank s.source = false := by
  cases step with
  | notCalled e own unable =>
    rw [own]
    constructor
    · exact fun h => nomatch h
    · rintro ⟨⟨engine, installed⟩, shown⟩
      exact absurd ⟨installed, shown, rfl⟩ (unable engine _)
  | failed engine message renders =>
    exact iff_of_true rfl ⟨⟨engine, renders.1⟩, renders.2.1⟩
  | rendered engine output renders =>
    exact iff_of_true rfl ⟨⟨engine, renders.1⟩, renders.2.1⟩

theorem eq_of_not_fromRenderer (step : s.Steps .calculate result)
    (own : result.2.fromRenderer = false) : result.1 = s := by
  cases step with
  | notCalled => rfl
  | failed | rendered => cases own

theorem keeps_of_failed {e : SheetError} (step : s.Steps .calculate result)
    (failed : result.2 = .calculated (.error e)) :
    result.1.source = s.source ∧ result.1.output? = s.output? ∧
      result.1.stage = s.stage := by
  cases step with
  | notCalled | failed => exact ⟨rfl, rfl, rfl⟩
  | rendered => cases failed

theorem eq_of_refused {name : Text} {value : Float} {e : SheetError}
    (step : s.Steps (.setVariable name value) result)
    (refused : result.2 = .written (some e)) :
    result.1 = s := by
  cases step with
  | setVariable name value source failure kept =>
    cases refused
    rw [kept (Option.some_ne_none e), withSource_source]

theorem setVariable_keeps {name : Text} {value : Float}
    (step : s.Steps (.setVariable name value) result) :
    result.1.stage = s.stage ∧ result.1.output? = s.output? := by
  cases step with
  | setVariable => exact ⟨stage_withSource s _, output?_withSource s _⟩

theorem setVariables_keeps {values : List (Text × Float)}
    (step : s.Steps (.setVariables values) result) :
    result.1.stage = s.stage ∧ result.1.output? = s.output? := by
  cases step with
  | setVariables => exact ⟨stage_withSource s _, output?_withSource s _⟩

end Steps

/-! ## Runs -/

theorem after_append_singleton (config : SheetConfig) (actions : List Action)
    (a : Action) :
    after config (actions ++ [a]) = ((after config actions).act a).1 := by
  rw [after, perform_append_singleton]
  rfl

theorem stage_after_eq_empty_iff (config : SheetConfig)
    (actions : List Action) :
    (after config actions).stage = .empty ↔
      ∀ source, .load source ∉ actions := by
  induction actions using List.reverseRecOn with
  | nil => exact iff_of_true rfl fun _ => List.not_mem_nil
  | append_singleton actions a ih =>
    rw [after_append_singleton, (act_steps _ a).stage_eq_empty_iff, ih]
    simp only [List.mem_append, List.mem_singleton, not_or, forall_and, ne_eq,
      eq_comm]

/-- The last calculation that succeeded gave the output, and no source was
loaded since. -/
def LastRendering (config : SheetConfig) (actions : List Action)
    (output : Text) : Prop :=
  ∃ before later, actions = before ++ .calculate :: later ∧
    (∃ engine, (after config before).Renders engine (.ok output)) ∧
    (∀ source, .load source ∉ later) ∧
    ∀ mid rest, later = mid ++ .calculate :: rest → ∀ engine other,
      ¬(after config (before ++ .calculate :: mid)).Renders engine (.ok other)

/-- An element of a list with one more at its end is that one or stands before
it. -/
theorem append_singleton_eq_iff {α : Type} {xs ys zs : List α} {a b : α} :
    xs ++ [a] = ys ++ b :: zs ↔
      (zs = [] ∧ xs = ys ∧ a = b) ∨ ∃ zs', zs = zs' ++ [a] ∧
        xs = ys ++ b :: zs' := by
  rcases List.eq_nil_or_concat zs with rfl | ⟨zs, c, rfl⟩
  · simp
  · rw [List.concat_eq_append, ← List.cons_append, ← List.append_assoc,
      List.append_singleton_inj]
    constructor
    · rintro ⟨rfl, rfl⟩
      exact .inr ⟨zs, rfl, rfl⟩
    · rintro (⟨nil, -⟩ | ⟨zs', eq, rfl⟩)
      · cases zs <;> cases nil
      · rw [List.append_singleton_inj] at eq
        rw [eq.1, eq.2]
        exact ⟨rfl, rfl⟩

theorem lastRendering_append_singleton (config : SheetConfig)
    (actions : List Action) (a : Action) (output : Text) :
    LastRendering config (actions ++ [a]) output ↔
      (a = .calculate ∧
        ∃ engine, (after config actions).Renders engine (.ok output)) ∨
      (LastRendering config actions output ∧ (∀ source, a ≠ .load source) ∧
        (a = .calculate → ∀ engine other,
          ¬(after config actions).Renders engine (.ok other))) := by
  constructor
  · rintro ⟨before, later, eq, given, unloaded, last⟩
    rcases append_singleton_eq_iff.1 eq with
      ⟨-, rfl, calculation⟩ | ⟨later, rfl, rfl⟩
    · exact .inl ⟨calculation, given⟩
    · refine .inr ⟨⟨before, later, rfl, given, ?_, ?_⟩, ?_, ?_⟩
      · intro source mem
        exact unloaded source (List.mem_append_left _ mem)
      · rintro mid rest rfl
        exact last mid (rest ++ [a])
          (by rw [List.append_assoc, List.cons_append])
      · rintro source rfl
        exact unloaded source (List.mem_append_right _ List.mem_cons_self)
      · rintro rfl
        exact last later [] rfl
  · rintro (⟨rfl, given⟩ |
      ⟨⟨before, later, rfl, given, unloaded, last⟩, unload, unable⟩)
    · refine ⟨actions, [], rfl, given, fun _ => List.not_mem_nil, ?_⟩
      intro mid rest eq
      cases mid <;> cases eq
    · refine ⟨before, later ++ [a], by rw [List.append_assoc, List.cons_append],
        given, ?_, ?_⟩
      · intro source mem
        rcases List.mem_append.1 mem with mem | mem
        · exact unloaded source mem
        · exact unload source (List.mem_singleton.1 mem).symm
      · intro mid rest eq
        rcases append_singleton_eq_iff.1 eq with
          ⟨-, rfl, calculation⟩ | ⟨rest, rfl, rfl⟩
        · exact unable calculation
        · exact last mid rest rfl

theorem output?_after_eq_some_iff (config : SheetConfig) (actions : List Action)
    (output : Text) :
    (after config actions).output? = some output ↔
      LastRendering config actions output := by
  induction actions using List.reverseRecOn with
  | nil =>
    constructor
    · exact fun h => nomatch h
    · rintro ⟨before, later, eq, -⟩
      cases before <;> cases eq
  | append_singleton actions a ih =>
    rw [after_append_singleton, (act_steps _ a).output?_eq_some_iff, ih,
      lastRendering_append_singleton]

theorem renders_perform (s : Sheet) (actions : List Action) :
    (perform act s actions).1.renders =
      s.renders + (perform act s actions).2.countP Answer.fromRenderer := by
  induction actions generalizing s with
  | nil => rfl
  | cons a actions ih =>
    rw [perform_cons, ih, (act_steps s a).renders_eq, List.countP_cons]
    omega

/-! ## Stage, output and count as fields -/

/-- A sheet whose stage is kept beside source and output. -/
structure Fields where
  config : SheetConfig
  source : Text
  output : Option Text
  stage : Stage
  engine : Option Engine
  renders : Nat

namespace Fields

def new (config : SheetConfig) : Fields := ⟨config, [], none, .empty, none, 0⟩

def load (f : Fields) (source : Text) : Fields :=
  { f with source := source, output := none, stage := .loaded }

def setRenderer (f : Fields) (r : Renderer) : Fields :=
  { f with engine := some ⟨r, []⟩ }

def setVariable (f : Fields) (w : Text × Float) : Fields × Option SheetError :=
  if f.stage = .empty then (f, some .noSource)
  else
    match assign f.config.vocabulary f.source w.1 w.2 with
    | .ok source => ({ f with source := source }, none)
    | .error e => (f, some e)

/-- Writes values in turn, adds to a report what becomes of each, and breaks off
at a structural failure. -/
def setEach (f : Fields) (a : Assigned) :
    List (Text × Float) → Fields × Except SheetError Assigned
  | [] => (f, .ok a)
  | w :: ws =>
    match f.setVariable w with
    | (next, none) => next.setEach { a with applied := a.applied ++ [w.1] } ws
    | (next, some e) =>
      if e.isStructural then (next, .error e)
      else next.setEach { a with failures := a.failures ++ [e] } ws

def setVariables (f : Fields) (ws : List (Text × Float)) :
    Fields × Except SheetError Assigned :=
  if f.stage = .empty then (f, .error .noSource) else f.setEach ⟨[], []⟩ ws

/-- Counts the call of the renderer before it looks at the answer, and sets the
stage before the output. -/
def calculate (f : Fields) : Fields × Except SheetError Text :=
  match f.engine with
  | none => (f, .error .noRenderer)
  | some engine =>
    if isAllBlank f.source then (f, .error .noSource)
    else
      let request :=
        UnitAlias.expand f.config.vocabulary f.config.aliases f.source
      let called :=
        { f with
          engine := some
            { engine with requests := engine.requests ++ [request] },
          renders := f.renders + 1 }
      match engine.renderer engine.requests request with
      | .error message => (called, .error (.renderFailed message))
      | .ok output =>
        let rendered := { called with stage := .rendered }
        ({ rendered with output := some output }, .ok output)

def act (f : Fields) : Action → Fields × Answer
  | .load source => (f.load source, .done)
  | .setRenderer r => (f.setRenderer r, .done)
  | .setVariable name value =>
    let (next, failure) := f.setVariable (name, value)
    (next, .written failure)
  | .setVariables values =>
    let (next, result) := f.setVariables values
    (next, .assigned result)
  | .calculate =>
    let (next, result) := f.calculate
    (next, .calculated result)

end Fields

/-- The fields that a sheet stands for. -/
def fields (s : Sheet) : Fields :=
  ⟨s.config, s.source, s.output?, s.stage, s.engine, s.renders⟩

@[simp] theorem config_fields (s : Sheet) : s.fields.config = s.config := rfl

@[simp] theorem source_fields (s : Sheet) : s.fields.source = s.source := rfl

@[simp] theorem stage_fields (s : Sheet) : s.fields.stage = s.stage := rfl

@[simp] theorem engine_fields (s : Sheet) : s.fields.engine = s.engine := rfl

theorem fields_withSource (loaded : s.stage ≠ .empty) (source : Text) :
    (s.withSource source).fields = { s.fields with source := source } := by
  rw [fields, source_withSource loaded, output?_withSource, stage_withSource]
  rfl

theorem fields_withOutput (loaded : s.stage ≠ .empty) (output : Text) :
    (s.withOutput output).fields =
      { s.fields with output := some output, stage := .rendered } := by
  rw [fields, source_withOutput, output?_withOutput loaded,
    stage_withOutput loaded]
  rfl

theorem fields_setVariable (s : Sheet) (w : Text × Float) :
    s.fields.setVariable w =
      ((attempt write s w).1.fields, (attempt write s w).2) := by
  rw [Fields.setVariable, config_fields, source_fields, stage_fields]
  split
  · next empty =>
    have refused : write s w = .error .noSource := by
      rw [write, setVariable, stage_eq_empty_iff.1 empty]
    rw [attempt_of_error refused]
  · next loaded =>
    have carried := attempt_write loaded s.source w
    rw [withSource_source] at carried
    rw [carried]
    split
    · next source result =>
      have written : rewrite s.vocabulary s.source w = .ok source := result
      rw [attempt_of_ok written, fields_withSource loaded]
      rfl
    · next e result =>
      have failed : rewrite s.vocabulary s.source w = .error e := result
      rw [attempt_of_error failed, withSource_source]

theorem fields_setEach (s : Sheet) (a : Assigned) (ws : List (Text × Float)) :
    s.fields.setEach a ws =
      ((s.writeEach a ws).1.fields, (s.writeEach a ws).2) := by
  induction ws generalizing s a with
  | nil => rfl
  | cons w ws ih =>
    rw [Fields.setEach, fields_setVariable, writeEach]
    cases result : write s w with
    | ok next =>
      rw [attempt_of_ok result]
      exact ih next _
    | error e =>
      rw [attempt_of_error result]
      dsimp only
      split
      · rfl
      · exact ih s _

theorem fields_setVariables (s : Sheet) (ws : List (Text × Float)) :
    s.fields.setVariables ws = ((s.setEach ws).1.fields, (s.setEach ws).2) := by
  rw [Fields.setVariables, stage_fields, setEach]
  split
  · rfl
  · exact fields_setEach s ⟨[], []⟩ ws

theorem fields_calculate (s : Sheet) :
    s.fields.calculate = (s.calculate.1.fields, s.calculate.2) := by
  rw [Fields.calculate, engine_fields]
  cases installed : s.engine with
  | none => rw [calculate_of_no_engine installed]
  | some engine =>
    dsimp only
    split
    · next blank => rw [calculate_of_blank installed blank]
    · next shown =>
      rw [source_fields, Bool.not_eq_true] at shown
      split
      · next message answer =>
        rw [calculate_of_failure ⟨installed, shown, answer⟩]
        rfl
      · next output answer =>
        have renders : s.Renders engine (.ok output) :=
          ⟨installed, shown, answer⟩
        have loaded : (s.called engine).stage ≠ .empty := renders.loaded
        rw [calculate_of_output renders, fields_withOutput loaded]
        rfl

theorem fields_act (s : Sheet) (a : Action) :
    s.fields.act a = ((s.act a).1.fields, (s.act a).2) := by
  cases a with
  | load source => rfl
  | setRenderer r => rfl
  | setVariable name value =>
    rw [Fields.act, fields_setVariable]
    rfl
  | setVariables values =>
    rw [Fields.act, fields_setVariables, act]
    by_cases loaded : s.stage ≠ .empty
    · rw [setVariables_eq loaded, setEach_eq loaded]
    · rw [ne_eq, not_not] at loaded
      rw [setVariables_of_empty loaded, setEach, if_pos loaded]
  | calculate =>
    rw [Fields.act, fields_calculate]
    rfl

/-- What a sheet and the answers tell of the actions on a new sheet. -/
structure Tells (s : Sheet) (config : SheetConfig) (actions : List Action)
    (answers : List Answer) :
    Prop where
  empty_iff : s.stage = .empty ↔ ∀ source, .load source ∉ actions
  rendered_iff : s.stage = .rendered ↔ s.output?.isSome
  output_iff : ∀ output, s.output? = some output ↔
    LastRendering config actions output
  renders_eq : s.renders = answers.countP Answer.fromRenderer

theorem tells_after (config : SheetConfig) (actions : List Action) :
    (after config actions).Tells config actions
      (perform act (new config) actions).2 where
  empty_iff := stage_after_eq_empty_iff config actions
  rendered_iff := stage_eq_rendered_iff
  output_iff := output?_after_eq_some_iff config actions
  renders_eq := (renders_perform (new config) actions).trans (Nat.zero_add _)

/-- What the next action leaves of a sheet. -/
structure Leaves (s : Sheet) : Prop where
  refused : ∀ name value e, (s.act (.setVariable name value)).2 =
    .written (some e) →
    (s.act (.setVariable name value)).1 = s
  written : ∀ name value, (s.act (.setVariable name value)).1.stage = s.stage ∧
    (s.act (.setVariable name value)).1.output? = s.output?
  assigned : ∀ values, (s.act (.setVariables values)).1.stage = s.stage ∧
    (s.act (.setVariables values)).1.output? = s.output?
  failed : ∀ e, (s.act .calculate).2 = .calculated (.error e) →
    (s.act .calculate).1.source = s.source ∧
      (s.act .calculate).1.output? = s.output? ∧
      (s.act .calculate).1.stage = s.stage
  called_iff : (s.act .calculate).2.fromRenderer = true ↔
    (∃ engine, s.engine = some engine) ∧ isAllBlank s.source = false
  uncalled : (s.act .calculate).2.fromRenderer = false →
    (s.act .calculate).1 = s

theorem leaves (s : Sheet) : s.Leaves where
  refused _ _ _ := (act_steps s _).eq_of_refused
  written _ _ := (act_steps s _).setVariable_keeps
  assigned _ := (act_steps s _).setVariables_keeps
  failed _ := (act_steps s _).keeps_of_failed
  called_iff := (act_steps s _).fromRenderer_iff
  uncalled := (act_steps s _).eq_of_not_fromRenderer

/-- Every run from a new sheet comes to the sheet and the answers that single
fields come to. The sheet is empty until a source is loaded. It is rendered as
long as it has an output, and the output is what the last calculation that
succeeded since the last loading gave for the source of that moment. It counts
the calls of renderers. From there, a write that fails leaves the sheet, no
write touches stage or output, and a calculation that fails keeps source, output
and stage and calls the renderer only when there is one and something to
render. -/
theorem stages_over_runs (config : SheetConfig) (actions : List Action) :
    ∃ s answers, perform act (new config) actions = (s, answers) ∧
      perform Fields.act (Fields.new config) actions = (s.fields, answers) ∧
      s.Tells config actions answers ∧ s.Leaves := by
  have along : perform Fields.act (new config).fields actions =
      ((perform act (new config) actions).1.fields,
       (perform act (new config) actions).2) :=
    perform_carried (fun a _ s => fields_act s a) (new config)
  exact ⟨_, _, rfl, along, tells_after config actions, leaves _⟩

/-- A calculation that succeeds, one that fails, and a write that fails. -/
theorem stages_over_runs_sample :
    ∃ s answers,
      perform act (new .standard)
        [.load "a = 2".toList, .setRenderer fun _ _ => .ok "two".toList,
        .calculate, .setRenderer fun _ _ => .error "broken".toList,
        .setVariable ['a'] 5, .calculate, .setVariable ['b'] 1] = (s, answers) ∧
      s.stage = .rendered ∧ s.output? = some "two".toList ∧
      s.source = "a = 5".toList ∧
      answers.countP Answer.fromRenderer = 2 := by
  obtain ⟨s, answers, run, -, tells, -⟩ := stages_over_runs .standard
    [.load "a = 2".toList, .setRenderer fun _ _ => .ok "two".toList, .calculate,
      .setRenderer fun _ _ => .error "broken".toList, .setVariable ['a'] 5,
      .calculate, .setVariable ['b'] 1]
  have found : s.output? = some "two".toList ∧ s.source = "a = 5".toList ∧
      s.renders = 2 := by
    rw [← (Prod.mk.inj run).1]
    decide +kernel
  refine ⟨s, answers, run, ?_, found.1, found.2.1, ?_⟩
  · rw [tells.rendered_iff, found.1]
    rfl
  · rw [← tells.renders_eq, found.2.2]

end Worksheet.Sheet

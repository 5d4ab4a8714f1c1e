import Worksheet.Sheet

/-!
# What writing changes of a sheet

A sheet with a source is written to by writing to the source, and by nothing
else: the output of the last calculation, the renderer and the configuration
stay. A sheet without source refuses.
-/

namespace Worksheet.Sheet

variable {s s' : Sheet} {a : Assigned} {values : List (Text × Float)}

theorem stage_eq_empty_iff : s.stage = .empty ↔ s.page = none := by
  rw [stage]
  cases s.page with
  | none => simp
  | some page =>
    obtain ⟨source, output⟩ := page
    cases output <;> simp

theorem exists_page (loaded : s.stage ≠ .empty) : ∃ page, s.page = some page :=
  Option.ne_none_iff_exists'.1 (mt stage_eq_empty_iff.2 loaded)

/-- The sheet with another source in place of the one that is loaded; all else
stays. -/
def withSource (s : Sheet) (source : Text) : Sheet :=
  { s with page := s.page.map fun page => { page with source } }

@[simp] theorem config_withSource (s : Sheet) (source : Text) :
    (s.withSource source).config = s.config := rfl

@[simp] theorem vocabulary_withSource (s : Sheet) (source : Text) :
    (s.withSource source).vocabulary = s.vocabulary := rfl

@[simp] theorem engine_withSource (s : Sheet) (source : Text) :
    (s.withSource source).engine = s.engine := rfl

@[simp] theorem renders_withSource (s : Sheet) (source : Text) :
    (s.withSource source).renders = s.renders := rfl

@[simp] theorem stage_withSource (s : Sheet) (source : Text) :
    (s.withSource source).stage = s.stage := by
  obtain ⟨config, page, engine, renders⟩ := s
  rcases page with _ | ⟨_, output⟩
  · rfl
  · cases output <;> rfl

@[simp] theorem output?_withSource (s : Sheet) (source : Text) :
    (s.withSource source).output? = s.output? := by
  obtain ⟨config, page, engine, renders⟩ := s
  cases page <;> rfl

theorem source_withSource (loaded : s.stage ≠ .empty) (source : Text) :
    (s.withSource source).source = source := by
  obtain ⟨page, hpage⟩ := exists_page loaded
  rw [Sheet.source, withSource, hpage]
  rfl

theorem withSource_source (s : Sheet) : s.withSource s.source = s := by
  obtain ⟨config, page, engine, renders⟩ := s
  cases page <;> rfl

theorem equations_withSource (loaded : s.stage ≠ .empty) (source : Text) :
    (s.withSource source).equations = s.vocabulary.equations source := by
  rw [equations, source_withSource loaded, vocabulary_withSource]

/-- Writing to a sheet is writing to its source. -/
theorem setVariable_withSource (loaded : s.stage ≠ .empty) (source name : Text)
    (x : Float) :
    (s.withSource source).setVariable name x =
      (assign s.vocabulary source name x).map s.withSource := by
  obtain ⟨page, hpage⟩ := exists_page loaded
  have there : (s.withSource source).page = some { page with source } := by
    rw [withSource, hpage, Option.map_some]
  simp only [setVariable, there, vocabulary_withSource]
  cases assign s.vocabulary source name x with
  | ok next => simp only [Except.map, withSource, hpage, Option.map_some]
  | error e => rfl

theorem setVariables_of_empty (empty : s.stage = .empty)
    (values : List (Text × Float)) :
    s.setVariables values = .error .noSource := by
  rw [setVariables, stage_eq_empty_iff.1 empty]

/-- Writing several values to a sheet is writing them to its source. -/
theorem setVariables_eq (loaded : s.stage ≠ .empty)
    (values : List (Text × Float)) :
    s.setVariables values =
      .ok (s.withSource (assignAll s.vocabulary s.source values).1,
        (assignAll s.vocabulary s.source values).2) := by
  obtain ⟨page, hpage⟩ := exists_page loaded
  simp only [setVariables, source, withSource, hpage, Option.elim_some,
    Option.map_some]

theorem of_setVariables (h : s.setVariables values = .ok (s', a)) :
    s.stage ≠ .empty ∧ s' =
      s.withSource (assignAll s.vocabulary s.source values).1 ∧
      a = (assignAll s.vocabulary s.source values).2 := by
  have loaded : s.stage ≠ .empty := by
    intro empty
    rw [setVariables_of_empty empty] at h
    cases h
  rw [setVariables_eq loaded] at h
  cases h
  exact ⟨loaded, rfl, rfl⟩

end Worksheet.Sheet

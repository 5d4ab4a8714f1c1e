import Mathlib.Data.List.Induction
import Worksheet.Proofs.Decimal.Value
import Worksheet.Proofs.Markup.Reading
import Worksheet.Sheet

/-!
# Views of the results

The results of a sheet are shown with their values and units together, or each
alone, and checked, with the reason for what is missing. A value that is no
number and an empty unit stand for what could not be extracted. No value that is
extracted is no number and no unit that is extracted is empty, so that the views
tell the same: what is missing in one is missing in all, and what is found is
found alike.
-/

namespace Worksheet

open Text Decimal Markup

/-! ## Names -/

/-- The names of a list, each once, in the order of their first occurrences. -/
structure FirstOccurrences (all names : List Text) : Prop where
  nodup : names.Nodup
  mem : ∀ name, name ∈ names ↔ name ∈ all
  ordered : names.Pairwise fun name later => all.idxOf name < all.idxOf later

theorem distinct_append_singleton (all : List Text) (name : Text) :
    Sheet.distinct (all ++ [name]) =
      if name ∈ Sheet.distinct all then Sheet.distinct all
      else Sheet.distinct all ++ [name] := by
  rw [Sheet.distinct, List.foldl_append, ← Sheet.distinct]
  simp

theorem firstOccurrences_distinct (all : List Text) :
    FirstOccurrences all (Sheet.distinct all) := by
  induction all using List.reverseRecOn with
  | nil => exact ⟨.nil, by simp [Sheet.distinct], .nil⟩
  | append_singleton all name ih =>
    -- A name that is there already keeps the place of its first occurrence.
    have same : ∀ n ∈ Sheet.distinct all,
        (all ++ [name]).idxOf n = all.idxOf n := by
      intro n hn
      exact List.idxOf_append_of_mem ((ih.mem n).1 hn)
    have ordered : (Sheet.distinct all).Pairwise
        fun n later => (all ++ [name]).idxOf n <
          (all ++ [name]).idxOf later := by
      refine ih.ordered.imp_of_mem fun {n later} hn hlater before => ?_
      rwa [same n hn, same later hlater]
    rw [distinct_append_singleton]
    split
    · next seen =>
      refine ⟨ih.nodup, fun n => ?_, ordered⟩
      rw [ih.mem, List.mem_append, List.mem_singleton]
      constructor
      · exact .inl
      · rintro (there | rfl)
        · exact there
        · exact (ih.mem n).1 seen
    · next new =>
      have absent : name ∉ all := mt (ih.mem name).2 new
      have last : (all ++ [name]).idxOf name = all.length := by
        rw [List.idxOf_append_of_notMem absent, List.idxOf_cons_self]
        rfl
      refine ⟨?_, fun n => ?_, ?_⟩
      · rw [← List.concat_eq_append]
        exact ih.nodup.concat new
      · rw [List.mem_append, List.mem_append, ih.mem]
      · refine List.pairwise_append.2 ⟨ordered, List.pairwise_singleton _ _, ?_⟩
        intro n hn later hlater
        rw [List.mem_singleton.1 hlater, last, same n hn]
        exact List.idxOf_lt_length_of_mem ((ih.mem n).1 hn)

/-! ## What is extracted -/

/-- A scalar is a number, also when its power of ten is too large for a
double. -/
theorem isNaN_of_scalar? {s rest : Text} {x : Float}
    (h : scalar? s = some (x, rest)) :
    x.isNaN = false := by
  rw [scalar?, Option.or_eq_some_iff] at h
  rcases h with scientific | ⟨-, leading⟩
  · unfold scientific? at scientific
    split at scientific
    · obtain ⟨y, value, eq⟩ := Option.map_eq_some_iff.1 scientific
      cases eq
      exact isNaN_of_value? value
    · cases scientific
  · unfold leadingNumeral? at leading
    split at leading
    · obtain ⟨y, value, eq⟩ := Option.map_eq_some_iff.1 leading
      cases eq
      exact isNaN_of_value? value
    · cases leading

theorem ne_nil_of_fractionBase? {above below unit : Text}
    (h : fractionBase? above below = some unit) : unit ≠ [] := by
  unfold fractionBase? at h
  dsimp only at h
  split at h
  · cases h
  · split at h
    · cases h
      simp
    · cases h

theorem ne_nil_of_fractionUnit? {markup unit : Text}
    (h : fractionUnit? markup = some unit) :
    unit ≠ [] := by
  rw [fractionUnit?_eq, Option.map_eq_some_iff] at h
  obtain ⟨⟨base, after⟩, reading, whole⟩ := h
  obtain rfl : base ++ power after = unit := whole
  simp only [fractionReading?, Option.bind_eq_some_iff,
    Option.map_eq_some_iff] at reading
  obtain ⟨_, _, _, _, _, _, unit, found, eq⟩ := reading
  cases eq
  exact List.append_ne_nil_of_left_ne_nil (ne_nil_of_fractionBase? found) _

theorem ne_nil_of_italicUnit? {markup unit : Text}
    (h : italicUnit? markup = some unit) :
    unit ≠ [] := by
  rw [italicUnit?_eq, Option.map_eq_some_iff] at h
  obtain ⟨⟨base, after⟩, reading, whole⟩ := h
  obtain rfl : base ++ power after = unit := whole
  simp only [italicReading?, Option.bind_eq_some_iff] at reading
  obtain ⟨_, _, _, _, reading⟩ := reading
  split at reading
  · cases reading
  · next shown =>
    cases reading
    exact List.append_ne_nil_of_left_ne_nil (mt List.isEmpty_iff.2 shown) _

theorem ne_nil_of_unitAfterScalar? {v : Vocabulary} {s unit : Text}
    (h : v.unitAfterScalar? s = some unit) : unit ≠ [] := by
  unfold Vocabulary.unitAfterScalar? at h
  split at h
  · next x rest _ =>
    dsimp only at h
    split at h
    · cases h
    · next shown =>
      cases h
      exact mt List.isEmpty_iff.2 shown
  · cases h

namespace ResultBlock

variable {b : ResultBlock} {m : Miss}

theorem isNaN_of_value {x : Float} (h : b.value = .ok x) : x.isNaN = false := by
  unfold value at h
  split at h
  · next found =>
    cases h
    exact isNaN_of_scalar? found
  · cases h

theorem eq_of_value_error (h : b.value = .error m) :
    m = ⟨b.name, .unparsable⟩ := by
  unfold value at h
  split at h
  · cases h
  · cases h
    rfl

theorem ne_nil_of_unit {v : Vocabulary} {unit : Text}
    (h : b.unit v = .ok unit) : unit ≠ [] := by
  unfold ResultBlock.unit at h
  dsimp only at h
  split at h
  · next found =>
    cases h
    rw [Option.or_eq_some_iff, Option.or_eq_some_iff] at found
    rcases found with (fraction | ⟨-, italic⟩) | ⟨-, plain⟩
    · exact ne_nil_of_fractionUnit? fraction
    · exact ne_nil_of_italicUnit? italic
    · exact ne_nil_of_unitAfterScalar? plain
  · cases h

theorem eq_of_unit_error {v : Vocabulary} (h : b.unit v = .error m) :
    m = ⟨b.name, .noUnit⟩ := by
  unfold ResultBlock.unit at h
  dsimp only at h
  split at h
  · cases h
  · cases h
    rfl

end ResultBlock

theorem name_of_findBlock? {blocks : List ResultBlock} {name : Text}
    {b : ResultBlock} (h : findBlock? blocks name = some b) :
    b.name = name := by
  have same := List.find?_some h
  exact beq_iff_eq.1 same

theorem findBlock?_eq_none_iff {blocks : List ResultBlock} {name : Text} :
    findBlock? blocks name = none ↔ ∀ b ∈ blocks, b.name ≠ name := by
  simp [findBlock?, List.find?_eq_none]

/-! ## Views -/

/-- What is shown for a name agrees with what is checked for it: it is `missing`
just when there is a reason for that, and else it is what was found. The reason
carries the name, and it is the lack of a block just when no block of the name
was rendered. -/
structure Agrees {α : Type} (missing : α → Prop) (blocks : List ResultBlock)
    (name : Text) (shown : α) (checked : Except Miss α) : Prop where
  missing_iff : missing shown ↔ ∃ m, checked = .error m
  found : ∀ a, checked = .ok a → shown = a
  name_eq : ∀ m, checked = .error m → m.name = name
  noBlock : (∃ m, checked = .error m ∧ m.reason = .noBlock) ↔
    ∀ b ∈ blocks, b.name ≠ name

namespace Sheet

variable {α : Type} {s : Sheet}

/-- What `f` extracts from the block of a name. -/
def extract (s : Sheet) (f : ResultBlock → Except Miss α) (name : Text) :
    Except Miss α :=
  match findBlock? s.blocks name with
  | some b => f b
  | none => .error ⟨name, .noBlock⟩

theorem extractEach_eq_map (s : Sheet) (f : ResultBlock → Except Miss α) :
    s.extractEach f = s.resultNames.map (s.extract f) := rfl

/-- The combined view looks up the same blocks as the others. -/
theorem outcomes_eq_map_extract (s : Sheet) :
    s.outcomes = s.resultNames.map fun name =>
    ⟨name, valueOr noNumber (s.extract ResultBlock.value name),
      valueOr [] (s.extract (ResultBlock.unit s.vocabulary) name)⟩ := by
  refine List.map_congr_left fun name _ => ?_
  simp only [extract]
  cases findBlock? s.blocks name <;> rfl

/-- A stand-in that nothing extracted looks like tells what is missing. -/
theorem agrees_extract (missing : α → Prop) {default : α}
    {f : ResultBlock → Except Miss α} (standIn : missing default)
    (present : ∀ b a, f b = .ok a → ¬missing a)
    (named : ∀ b m, f b = .error m → m.name = b.name ∧ m.reason ≠ .noBlock)
    (name : Text) :
    Agrees missing s.blocks name (valueOr default (s.extract f name))
      (s.extract f name) := by
  cases found : findBlock? s.blocks name with
  | none =>
    have absent := findBlock?_eq_none_iff.1 found
    have checked : s.extract f name = .error ⟨name, .noBlock⟩ := by
      rw [extract, found]
    rw [checked]
    refine ⟨⟨fun _ => ⟨_, rfl⟩, fun _ => standIn⟩, nofun, ?_, ?_⟩
    · rintro m ⟨⟩
      rfl
    · exact ⟨fun _ => absent, fun _ => ⟨_, rfl, rfl⟩⟩
  | some b =>
    have hname := name_of_findBlock? found
    have there : ¬∀ b ∈ s.blocks, b.name ≠ name := by
      rw [← findBlock?_eq_none_iff, found]
      nofun
    have checked : s.extract f name = f b := by rw [extract, found]
    rw [checked]
    cases result : f b with
    | ok a =>
      refine ⟨⟨fun empty => absurd empty (present b a result), nofun⟩, ?_,
        nofun, ⟨nofun, ?_⟩⟩
      · rintro a' ⟨⟩
        rfl
      · exact fun absent => absurd absent there
    | error m =>
      obtain ⟨carries, reason⟩ := named b m result
      refine ⟨⟨fun _ => ⟨m, rfl⟩, fun _ => standIn⟩, nofun, ?_, ?_, ?_⟩
      · rintro m' ⟨⟩
        rw [carries, hname]
      · rintro ⟨m', ⟨⟩, noBlock⟩
        exact absurd noBlock reason
      · exact fun absent => absurd absent there

theorem isNaN_noNumber : noNumber.isNaN = true := by decide +kernel

/-- The results of a sheet are those of the names that its equations give, in
the order of their first occurrences. Every view has one entry for each of them.
The combined view shows the name with the value and the unit of the plain views,
and these agree with the checked ones. -/
theorem views_agree (s : Sheet) :
    FirstOccurrences (s.equations.map Equation.left) s.resultNames ∧
    s.outcomes.length = s.resultNames.length ∧
    s.plainValues.length = s.resultNames.length ∧
    s.plainUnits.length = s.resultNames.length ∧
    s.values.length = s.resultNames.length ∧
    s.units.length = s.resultNames.length ∧
    ∀ (i : Nat) (name : Text), s.resultNames[i]? = some name →
      ∃ value unit checkedValue checkedUnit,
        s.outcomes[i]? = some ⟨name, value, unit⟩ ∧
        s.plainValues[i]? = some value ∧ s.plainUnits[i]? = some unit ∧
        s.values[i]? = some checkedValue ∧ s.units[i]? = some checkedUnit ∧
        Agrees (·.isNaN = true) s.blocks name value checkedValue ∧
        Agrees (· = []) s.blocks name unit checkedUnit := by
  have value (name : Text) : Agrees (·.isNaN = true) s.blocks name
      (valueOr noNumber (s.extract ResultBlock.value name))
      (s.extract ResultBlock.value name) := by
    refine agrees_extract (Float.isNaN · = true) isNaN_noNumber
      (fun b x h => ?_)
      (fun b m h => ?_) name
    · rw [b.isNaN_of_value h]
      nofun
    · rw [b.eq_of_value_error h]
      exact ⟨rfl, nofun⟩
  have unit (name : Text) : Agrees (· = []) s.blocks name
      (valueOr [] (s.extract (ResultBlock.unit s.vocabulary) name))
      (s.extract (ResultBlock.unit s.vocabulary) name) := by
    refine agrees_extract (· = []) rfl (fun b u h => b.ne_nil_of_unit h)
      (fun b m h => ?_) name
    rw [b.eq_of_unit_error h]
    exact ⟨rfl, nofun⟩
  refine ⟨firstOccurrences_distinct _, ?_, ?_, ?_, ?_, ?_,
    fun i name there => ?_⟩
  · rw [outcomes_eq_map_extract, List.length_map]
  · rw [plainValues, Sheet.values, extractEach_eq_map, List.length_map,
      List.length_map]
  · rw [plainUnits, units, extractEach_eq_map, List.length_map, List.length_map]
  · rw [Sheet.values, extractEach_eq_map, List.length_map]
  · rw [units, extractEach_eq_map, List.length_map]
  · refine ⟨_, _, _, _, ?_, ?_, ?_, ?_, ?_, value name, unit name⟩
    all_goals
      simp only [outcomes_eq_map_extract, plainValues, plainUnits, Sheet.values,
        units, extractEach_eq_map, List.getElem?_map, there, Option.map_some]

/-- A sheet with three results, of which one is shown with its unit, one without
a number, and one not at all. -/
def threeResults : Sheet :=
  ⟨.standard, some ⟨"b = 2*a\nc = b*3\nb = a*4\nd = b*5".toList,
    some "b = a·4 = 8 kN\nc = ?".toList⟩, none, 0⟩

theorem views_agree_sample :
    threeResults.resultNames = [['b'], ['c'], ['d']] ∧
    ∃ (value : Float) (unit : Text) (checkedValue : Except Miss Float)
      (checkedUnit : Except Miss Text),
      threeResults.outcomes[2]? = some ⟨['d'], value, unit⟩ ∧
      threeResults.values[2]? = some checkedValue ∧
      threeResults.units[2]? = some checkedUnit ∧
      value.isNaN = true ∧ unit = [] ∧
      (∃ m, checkedValue = .error m ∧ m.name = ['d'] ∧ m.reason = .noBlock) ∧
      ∃ m, checkedUnit = .error m ∧ m.name = ['d'] ∧ m.reason = .noBlock := by
  have names : threeResults.resultNames = [['b'], ['c'], ['d']] := by
    decide +kernel
  have absent : ∀ b ∈ threeResults.blocks, b.name ≠ ['d'] := by decide +kernel
  have there : threeResults.resultNames[2]? = some ['d'] := by rw [names]; rfl
  obtain ⟨-, -, -, -, -, -, results⟩ := views_agree threeResults
  obtain ⟨value, unit, checkedValue, checkedUnit, outcome, -, -, atValue,
      atUnit, values, units⟩ :=
    results 2 ['d'] there
  obtain ⟨m, missing, reason⟩ := values.noBlock.2 absent
  obtain ⟨m', missing', reason'⟩ := units.noBlock.2 absent
  exact ⟨names, value, unit, checkedValue, checkedUnit, outcome, atValue,
    atUnit, values.missing_iff.2 ⟨m, missing⟩,
    units.missing_iff.2 ⟨m', missing'⟩,
    ⟨m, missing, values.name_eq m missing, reason⟩,
    ⟨m', missing', units.name_eq m' missing', reason'⟩⟩

end Sheet
end Worksheet

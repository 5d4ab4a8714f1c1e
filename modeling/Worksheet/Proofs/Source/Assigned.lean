import Worksheet.Proofs.Source.Overwriting

/-!
# Reports of several writes

A report of several writes accounts for each of them once. When the names are
distinct, the fate of each write is settled in the source before the first one:
a value that is not finite is refused, a name without a declaration is unknown,
and any other value is written. Each write is then told from the first
declaration of its own name, before and after the whole run, as if no other name
had been written.
-/

namespace Worksheet

open Text

/-- Whether the report has a failure for a name. -/
def Assigned.Failed (a : Assigned) (name : Text) : Prop :=
  .unknownVariable name ∈ a.failures ∨ ∃ x, .nonFinite name x ∈ a.failures

/-- The names without a declaration are one kind of failure. -/
theorem Assigned.mem_missing_iff {a : Assigned} {name : Text} :
    name ∈ a.missing ↔ .unknownVariable name ∈ a.failures := by
  rw [missing, List.mem_filterMap]
  constructor
  · rintro ⟨err, mem, eq⟩
    split at eq
    · cases eq
      exact mem
    · cases eq
  · intro mem
    exact ⟨_, mem, rfl⟩

/-- A report accounts for writes that came out in certain ways: it lists the
names that were written and the failures of the other writes, both in order, and
each failure tells of its own write. -/
structure Assigned.Accounts (a : Assigned) (ws : List (Text × Float))
    (outcomes : List (Option SheetError)) : Prop where
  length : outcomes.length = ws.length
  applied : a.applied = ((ws.zip outcomes).filter (·.2.isNone)).map (·.1.1)
  failures : a.failures = outcomes.reduceOption
  own : ∀ w err, (w, some err) ∈ ws.zip outcomes →
    w.2.isFinite = false ∧ err = .nonFinite w.1 w.2 ∨
      w.2.isFinite = true ∧ err = .unknownVariable w.1

namespace Assigned.Accounts

variable {a : Assigned} {ws : List (Text × Float)}
  {outcomes : List (Option SheetError)}

theorem nil : Accounts ⟨[], []⟩ [] [] := ⟨rfl, rfl, rfl, by simp⟩

theorem written (h : a.Accounts ws outcomes) (w : Text × Float) :
    Accounts ⟨w.1 :: a.applied, a.failures⟩ (w :: ws) (none :: outcomes) := by
  refine ⟨?_, ?_, h.failures, ?_⟩
  · rw [List.length_cons, List.length_cons, h.length]
  · rw [h.applied]
    rfl
  · intro w' err mem
    rcases List.mem_cons.1 mem with eq | mem
    · cases eq
    · exact h.own w' err mem

theorem failed (h : a.Accounts ws outcomes) {w : Text × Float}
    {err : SheetError} (own : w.2.isFinite = false ∧ err = .nonFinite w.1 w.2 ∨
      w.2.isFinite = true ∧ err = .unknownVariable w.1) :
    Accounts ⟨a.applied, err :: a.failures⟩ (w :: ws)
      (some err :: outcomes) := by
  refine ⟨?_, h.applied, ?_, ?_⟩
  · rw [List.length_cons, List.length_cons, h.length]
  · rw [h.failures]
    rfl
  · intro w' err' mem
    rcases List.mem_cons.1 mem with eq | mem
    · cases eq
      exact own
    · exact h.own w' err' mem

end Assigned.Accounts

/-- Whether a literal is read alone in the place of the bare number of a
statement. An input in braces has no bare number and takes every literal. -/
def Statement.Admits (s : Statement) (literal : Text) : Prop :=
  ∀ n rest, Decimal.Numeral.read? s.body = some (n, rest) →
    Decimal.numeralSize (literal ++ rest) = literal.size

theorem Statement.admits_of_braced {s : Statement} {literal : Text}
    (braced : Vocabulary.Braced s.body) : s.Admits literal := by
  intro n rest read
  exact absurd braced (Vocabulary.not_braced_of_read? read)

namespace LineTable

variable {v : Vocabulary} {source name literal : Text} {t : LineTable}

theorem declaration?_of_fill?_none (h : t.fill? v name literal = none) :
    t.declaration? name = none := by
  rw [declaration?, List.find?_eq_none]
  intro s hs
  obtain ⟨r, hr, hs⟩ := List.mem_flatMap.1 hs
  obtain ⟨c, hc, rfl⟩ := List.mem_map.1 hs
  have unfilled := fillRow_eq_none.1 (replaceFirst?_eq_none h r hr)
  simp [Line.fill?_eq_none unfilled c hc]

theorem exists_declaration?_of_fill? (mild : Mild literal)
    (h : (read v source).fill? v name literal = some t) :
    ∃ s, (read v source).declaration? name = some s := by
  obtain ⟨above, content, ending, line', below, before, clause, slot, after,
      filled, line⟩ :=
    exists_filled mild h
  exact ⟨clause.statement, filled.declaration?_eq line⟩

/-- A number that is read alone in the first declaration of a name is what this
declaration holds. -/
theorem declaration?_fill? {m : Decimal.Numeral}
    (written : m.Written Char.isDigit)
    (h : (read v source).fill? v name m.text = some t) {s : Statement}
    (declared : (read v source).declaration? name = some s)
    (admits : s.Admits m.text) :
    ∃ s', t.declaration? name = some s' ∧ s.Revalued s' m.value ∧
      s'.slot?.map Slot.literal = some m.text := by
  have mild := Mild.of_written written
  obtain ⟨above, content, ending, line', below, before, clause, slot, after,
      filled, line⟩ :=
    exists_filled mild h
  rw [filled.declaration?_eq line, Option.some.injEq] at declared
  subst declared
  have slot_eq := line.slot_eq
  rw [line.classified] at slot_eq admits
  obtain ⟨form, name', unit, body, body', old, new⟩ :=
    Vocabulary.classify_refill slot_eq written fun n rest read =>
      (Decimal.numeralSize_text_append_iff written).1 (admits n rest read)
  refine ⟨_, filled.declaration?_refilled line mild (by rw [new]; rfl), ?_,
    by rw [new]; rfl⟩
  rw [line.classified, old, new]
  exact Statement.revalued_of_literal written rfl

end LineTable

namespace Sheet

variable {v : Vocabulary} {source name : Text} {x : Float}
  {values : List (Text × Float)}

/-! ## One write -/

/-- How writing a value may go, by what it gives. -/
inductive AssignGoes (v : Vocabulary) (source name : Text) (x : Float) :
    Except SheetError Text → Prop
  | refused (infinite : x.isFinite = false) : AssignGoes v source name x
    (.error (.nonFinite name x))
  | unknown (finite : x.isFinite = true)
    (undeclared : (LineTable.read v source).declaration? name = none) :
    AssignGoes v source name x (.error (.unknownVariable name))
  | filled (finite : x.isFinite = true) (s : Statement)
    (declared : (LineTable.read v source).declaration? name = some s)
    (t : LineTable)
    (fill : (LineTable.read v source).fill? v name (Decimal.plain x) = some t) :
    AssignGoes v source name x (.ok t.source)

theorem assign_goes (v : Vocabulary) (source name : Text) (x : Float) :
    AssignGoes v source name x (assign v source name x) := by
  cases finite : x.isFinite with
  | false =>
    rw [assign, if_neg (by simp [finite])]
    exact .refused finite
  | true =>
    rw [assign_of_fill? finite]
    split
    · next t fill =>
      obtain ⟨s, declared⟩ :=
        LineTable.exists_declaration?_of_fill? (mild_plain x) fill
      exact .filled finite s declared t fill
    · next unfilled =>
        exact .unknown finite (LineTable.declaration?_of_fill?_none unfilled)

/-- The failure that the first declarations of a source foretell for a write. -/
def failure? (t : LineTable) (w : Text × Float) : Option SheetError :=
  if w.2.isFinite then
    if (t.declaration? w.1).isNone then some (.unknownVariable w.1) else none
  else some (.nonFinite w.1 w.2)

theorem failure?_eq_some_iff {t : LineTable} {w : Text × Float}
    {err : SheetError} :
    failure? t w = some err ↔
      w.2.isFinite = false ∧ err = .nonFinite w.1 w.2 ∨
        w.2.isFinite = true ∧ t.declaration? w.1 = none ∧
          err = .unknownVariable w.1 := by
  cases finite : w.2.isFinite <;> cases declared : t.declaration? w.1 <;>
    simp [failure?, finite, declared, eq_comm]

theorem failure?_read (v : Vocabulary) (source : Text) (w : Text × Float) :
    failure? (LineTable.read v source) w =
      (attempt (rewrite v) source w).2 := by
  have goes := assign_goes v source w.1 w.2
  rw [attempt, rewrite]
  generalize assign v source w.1 w.2 = result at goes ⊢
  cases goes with
  | refused infinite => simp [failure?, infinite]
  | unknown finite undeclared => simp [failure?, finite, undeclared]
  | filled finite s declared t fill => simp [failure?, finite, declared]

/-- A write leaves the first declarations of other names. -/
theorem declaration?_written_of_ne {w : Text × Float} {other : Text}
    (ne : w.1 ≠ other) :
    (LineTable.read v (written v source w)).declaration? other =
      (LineTable.read v source).declaration? other := by
  have goes := assign_goes v source w.1 w.2
  rw [written]
  generalize assign v source w.1 w.2 = result at goes ⊢
  cases goes with
  | refused => rfl
  | unknown => rfl
  | filled finite s declared t fill =>
    have mild := mild_plain w.2
    rw [LineTable.read_source_of_fill? mild fill]
    exact LineTable.declaration?_fill?_of_ne mild ne fill

/-- After a finite value is written, the first declaration of the name holds it,
provided that it is read alone there. -/
theorem declaration?_written {s : Statement} (finite : x.isFinite = true)
    (declared : (LineTable.read v source).declaration? name = some s)
    (admits : s.Admits (Decimal.plain x)) :
    ∃ s', (LineTable.read v (written v source (name, x))).declaration? name =
      some s' ∧
      s.Revalued s' x ∧ s'.slot?.map Slot.literal = some (Decimal.plain x) := by
  obtain ⟨m, mWritten, -, text, value⟩ := Decimal.exists_plain finite
  have goes := assign_goes v source name x
  rw [written]
  generalize assign v source name x = result at goes ⊢
  cases goes with
  | refused infinite =>
    rw [finite] at infinite
    cases infinite
  | unknown _ undeclared =>
    rw [undeclared] at declared
    cases declared
  | filled _ _ _ t fill =>
    rw [LineTable.read_source_of_fill? (mild_plain x) fill]
    rw [← text] at fill admits ⊢
    rw [← value]
    exact LineTable.declaration?_fill? mWritten fill declared admits

/-! ## Runs of writes -/

theorem perform_rewrite_fst (v : Vocabulary) (source : Text)
    (values : List (Text × Float)) :
    (perform (attempt (rewrite v)) source values).1 =
      (assignAll v source values).1 := by
  rw [perform_fst, assignAll_fst]
  simp only [attempt_rewrite_fst]

/-- Writing several values reports what came of writing each in its turn. -/
theorem accounts_assignAll (v : Vocabulary) (source : Text)
    (values : List (Text × Float)) :
    (assignAll v source values).2.Accounts values
      (perform (attempt (rewrite v)) source values).2 := by
  induction values generalizing source with
  | nil => exact .nil
  | cons w values ih =>
    rw [perform_cons, assignAll]
    cases result : assign v source w.1 w.2 with
    | ok next =>
      rw [attempt_of_ok (f := rewrite v) result]
      exact (ih next).written w
    | error err =>
      have failure := failure?_read v source w
      rw [attempt_of_error (f := rewrite v) result] at failure ⊢
      have own := failure?_eq_some_iff.1 failure
      exact (ih source).failed
        (own.imp_right fun unknown => ⟨unknown.1, unknown.2.2⟩)

/-- Writes to distinct names do not matter for each other: each goes as it would
alone. -/
theorem outcomes_rewrite (v : Vocabulary) (source : Text)
    (distinct : (values.map Prod.fst).Nodup) :
    (perform (attempt (rewrite v)) source values).2 =
      values.map fun w => (attempt (rewrite v) source w).2 := by
  apply answers_eq_map (List.Nodup.of_map _ distinct)
  intro w hw w' hw' ne source
  have names : w.1 ≠ w'.1 := mt (List.inj_on_of_nodup_map distinct hw hw') ne
  rw [← failure?_read, ← failure?_read, failure?, failure?, attempt_rewrite_fst,
    declaration?_written_of_ne names]

/-- Writes to other names leave the first declaration of a name. -/
theorem declaration?_assignAll_of_notMem (h : name ∉ values.map Prod.fst) :
    (LineTable.read v (assignAll v source values).1).declaration? name =
      (LineTable.read v source).declaration? name := by
  rw [assignAll_fst]
  induction values generalizing source with
  | nil => rfl
  | cons w values ih =>
    rw [List.map_cons, List.mem_cons, not_or] at h
    rw [List.foldl_cons, ih h.2, declaration?_written_of_ne (Ne.symm h.1)]

/-- Among writes to distinct names, the one to a name meets the declaration that
the name had before them all, and what it leaves there stays. -/
theorem exists_declaration?_assignAll (v : Vocabulary) (source : Text)
    (distinct : (values.map Prod.fst).Nodup) (mem : (name, x) ∈ values) :
    ∃ s, (LineTable.read v s).declaration? name =
      (LineTable.read v source).declaration? name ∧
      (LineTable.read v (assignAll v source values).1).declaration? name =
        (LineTable.read v (written v s (name, x))).declaration? name := by
  induction values generalizing source with
  | nil => cases mem
  | cons w values ih =>
    rw [List.map_cons, List.nodup_cons] at distinct
    rw [assignAll_fst, List.foldl_cons, ← assignAll_fst]
    rcases List.mem_cons.1 mem with rfl | mem
    · exact ⟨source, rfl, declaration?_assignAll_of_notMem distinct.1⟩
    · have ne : w.1 ≠ name := by
        rintro rfl
        exact distinct.1 (List.mem_map.2 ⟨_, mem, rfl⟩)
      obtain ⟨s, before, after⟩ := ih (written v source w) distinct.2 mem
      rw [declaration?_written_of_ne ne] at before
      exact ⟨s, before, after⟩

/-- The failures of writes to distinct names are those that the first source
foretells. -/
theorem failures_assignAll (distinct : (values.map Prod.fst).Nodup) :
    (assignAll v source values).2.failures =
      values.filterMap (failure? (LineTable.read v source)) := by
  rw [(accounts_assignAll v source values).failures,
    outcomes_rewrite v source distinct, List.reduceOption, List.filterMap_map]
  simp only [failure?_read]
  rfl

section

variable (distinct : (values.map Prod.fst).Nodup) (mem : (name, x) ∈ values)

include distinct mem

/-- The failures for a name are those of the one write to it. -/
theorem mem_failures_assignAll_iff {err : SheetError}
    (about : err = .unknownVariable name ∨ ∃ y, err = .nonFinite name y) :
    err ∈ (assignAll v source values).2.failures ↔
      failure? (LineTable.read v source) (name, x) = some err := by
  rw [failures_assignAll distinct, List.mem_filterMap]
  constructor
  · rintro ⟨w, hw, failed⟩
    have same : w.1 = name := by
      rcases failure?_eq_some_iff.1 failed with ⟨-, rfl⟩ | ⟨-, -, rfl⟩ <;>
        simpa using about
    rwa [List.inj_on_of_nodup_map distinct hw mem same] at failed
  · intro failed
    exact ⟨_, mem, failed⟩

/-- A name is listed as missing just when a finite value is for it and it has no
declaration. -/
theorem mem_missing_assignAll_iff :
    name ∈ (assignAll v source values).2.missing ↔
      x.isFinite = true ∧
        (LineTable.read v source).declaration? name = none := by
  rw [Assigned.mem_missing_iff,
    mem_failures_assignAll_iff distinct mem (.inl rfl), failure?_eq_some_iff]
  simp

/-- A value that is not finite leaves the first declaration of its name. -/
theorem declaration?_assignAll_of_infinite (infinite : x.isFinite = false) :
    (LineTable.read v (assignAll v source values).1).declaration? name =
      (LineTable.read v source).declaration? name := by
  obtain ⟨s, before, after⟩ :=
    exists_declaration?_assignAll v source distinct mem
  have refused : assign v s name x = .error (.nonFinite name x) := by
    rw [assign, if_neg (by simp [infinite])]
  rw [after, written_of_error refused, before]

/-- A finite value is what the first declaration of its name holds, provided
that it is read alone there. -/
theorem declaration?_assignAll {d : Statement} (finite : x.isFinite = true)
    (declared : (LineTable.read v source).declaration? name = some d)
    (admits : d.Admits (Decimal.plain x)) :
    ∃ d', (LineTable.read v (assignAll v source values).1).declaration? name =
      some d' ∧
      d.Revalued d' x ∧ d'.slot?.map Slot.literal = some (Decimal.plain x) := by
  obtain ⟨s, before, after⟩ :=
    exists_declaration?_assignAll v source distinct mem
  rw [after]
  exact declaration?_written finite (before.trans declared) admits

theorem nonFinite_mem_assignAll (v : Vocabulary) (source : Text)
    (infinite : x.isFinite = false) :
    .nonFinite name x ∈ (assignAll v source values).2.failures := by
  rw [mem_failures_assignAll_iff distinct mem (.inr ⟨x, rfl⟩),
    failure?_eq_some_iff]
  exact .inl ⟨infinite, rfl⟩

end

/-- All names with a failure are listed as missing just when all values are
finite. -/
theorem failed_imp_missing_iff (distinct : (values.map Prod.fst).Nodup) :
    (∀ name, (assignAll v source values).2.Failed name →
        name ∈ (assignAll v source values).2.missing) ↔
      ∀ w ∈ values, w.2.isFinite = true := by
  constructor
  · -- A value that is not finite gives its name a failure that the list leaves
    -- out.
    rintro listed ⟨name, x⟩ mem
    by_contra infinite
    rw [Bool.not_eq_true] at infinite
    have failed := nonFinite_mem_assignAll distinct mem v source infinite
    have missing := (mem_missing_assignAll_iff distinct mem).1
      (listed name (.inr ⟨x, failed⟩))
    rw [infinite] at missing
    cases missing.1
  · rintro finite name (unknown | ⟨x, nonFinite⟩)
    · exact Assigned.mem_missing_iff.2 unknown
    · rw [failures_assignAll distinct, List.mem_filterMap] at nonFinite
      obtain ⟨w, hw, failed⟩ := nonFinite
      rcases failure?_eq_some_iff.1 failed with ⟨infinite, -⟩ | ⟨-, -, eq⟩
      · rw [finite w hw] at infinite
        cases infinite
      · cases eq

end Sheet
end Worksheet

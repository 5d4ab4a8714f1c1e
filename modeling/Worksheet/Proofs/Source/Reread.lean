import Worksheet.Proofs.Run
import Worksheet.Proofs.Sheet
import Worksheet.Proofs.Source.Overwriting
import Worksheet.Proofs.Text.Pieces

/-!
# Tables between writes

A table that was written to is the table that reading its own text gives,
whatever doubles were written, and whether or not the names were found. One
table that takes all the writes therefore stays in step with a sheet, which
keeps only its text and reads it again for each write.
-/

namespace Worksheet

open Text

/-! ## Tables -/

namespace LineTable

variable {v : Vocabulary} {source : Text} {t t' : LineTable} {w : Text × Float}

/-- Writes a value to a name. -/
def write (v : Vocabulary) (t : LineTable) (w : Text × Float) :
    Except SheetError LineTable :=
  t.setValue v w.1 w.2

/-- A table that reading its own text gives. -/
def Reread (v : Vocabulary) (t : LineTable) : Prop := read v t.source = t

theorem reread_read (v : Vocabulary) (source : Text) :
    Reread v (read v source) := by
  rw [Reread, source_read]

/-- A write rewrites one line without ending it early, whatever is written. -/
theorem Reread.write (h : Reread v t) (wrote : write v t w = .ok t') :
    Reread v t' := by
  rw [← h] at wrote
  exact read_source_of_fill? (Sheet.mild_plain w.2) (fill?_of_setValue wrote)

theorem Reread.attempt (h : Reread v t) (w : Text × Float) :
    Reread v (attempt (LineTable.write v) t w).1 :=
  attempt_keeps h fun _ wrote => h.write wrote

/-- Reading a source reads its pieces, with their endings taken off. -/
theorem read_eq_map_pieces (v : Vocabulary) (source : Text) :
    read v source = (feedPieces source).map fun piece =>
      readRow v (splitEnding piece) := by
  rw [read, rows_eq_map_splitEnding, List.map_map]
  rfl

/-- The equations of a table stand in the lines of its text. -/
theorem Reread.equations_eq (h : Reread v t) :
    t.equations = v.equations t.source := by
  conv => lhs; rw [← h]
  rw [equations, read, Vocabulary.equations, lines, List.filterMap_map,
    List.filterMap_map]
  rfl

end LineTable

/-- The equations of a source stand in its pieces, chomped. -/
theorem Vocabulary.equations_eq_filterMap_pieces (v : Vocabulary)
    (source : Text) :
    v.equations source =
      (feedPieces source).filterMap fun piece =>
        (Line.read v (chomp piece)).equation? := by
  rw [equations, lines_eq_map_chomp, List.filterMap_map]
  rfl

/-! ## Sheets -/

namespace Sheet

variable {s : Sheet} {source : Text}

/-- Writes a value to a name. -/
def write (s : Sheet) (w : Text × Float) : Except SheetError Sheet :=
  s.setVariable w.1 w.2

theorem attempt_write (loaded : s.stage ≠ .empty) (source : Text)
    (w : Text × Float) :
    attempt write (s.withSource source) w =
      (s.withSource (attempt (rewrite s.vocabulary) source w).1,
        (attempt (rewrite s.vocabulary) source w).2) :=
  attempt_carried (setVariable_withSource loaded source w.1 w.2)

/-- A run of writes to a sheet is a run of writes to its source. -/
theorem perform_write (loaded : s.stage ≠ .empty) (ws : List (Text × Float)) :
    perform (attempt write) s ws =
      (s.withSource (perform (attempt (rewrite s.vocabulary)) s.source ws).1,
        (perform (attempt (rewrite s.vocabulary)) s.source ws).2) := by
  conv => lhs; rw [← withSource_source s]
  apply perform_carried
  intro w _ source
  exact attempt_write loaded source w

/-- Writing a finite value to a source is writing it to the table of the
source. -/
theorem write_read (v : Vocabulary) (source : Text) {w : Text × Float}
    (finite : w.2.isFinite = true) :
    LineTable.write v (LineTable.read v source) w =
      (rewrite v source w).map (LineTable.read v) := by
  rw [rewrite, assign_of_fill? finite, LineTable.write, LineTable.setValue]
  cases filled : (LineTable.read v source).fill? v w.1 (Decimal.plain w.2) with
  | none => rfl
  | some t =>
    -- The source is read again, and gives the table that was written to.
    simp only [Except.map, LineTable.read_source_of_fill?
      (mild_plain w.2) filled]

/-- A run of writes of finite values to a source is one to its table. -/
theorem perform_write_read (v : Vocabulary) (source : Text)
    {ws : List (Text × Float)} (finite : ∀ w ∈ ws, w.2.isFinite = true) :
    perform (attempt (LineTable.write v)) (LineTable.read v source) ws =
      (LineTable.read v (perform (attempt (rewrite v)) source ws).1,
        (perform (attempt (rewrite v)) source ws).2) := by
  apply perform_carried
  intro w hw source
  exact attempt_carried (write_read v source (finite w hw))

end Sheet

/-- Over every run of writes of any doubles to the table of a source, the table
is the one that reading its own text gives, whichever way the text is cut into
lines, and its equations are those of its text. When the values are finite,
every sheet with this source comes to the same text with the same failures,
though it reads its text again for each write. -/
theorem LineTable.rereads_after_writes (v : Vocabulary) (source : Text)
    (ws : List (Text × Float)) :
    ∃ t failures, perform (attempt (write v)) (read v source) ws =
      (t, failures) ∧
      (read v source).source = source ∧
      read v t.source = t ∧
      t = (feedPieces t.source).map (fun piece =>
        readRow v (splitEnding piece)) ∧
      t.equations =
        (feedPieces t.source).filterMap
          (fun piece => (Line.read v (chomp piece)).equation?) ∧
      ((∀ w ∈ ws, w.2.isFinite = true) →
        ∀ s : Sheet, s.stage ≠ .empty → s.vocabulary = v → s.source = source →
          ∃ s', perform (attempt Sheet.write) s ws = (s', failures) ∧
            s'.source = t.source ∧ s'.equations = t.equations) := by
  have reread : Reread v (perform (attempt (write v)) (read v source) ws).1 :=
    perform_invariant (reread_read v source) fun _ w h => h.attempt w
  refine ⟨_, _, rfl, source_read v source, reread, ?_, ?_, ?_⟩
  · rw [← read_eq_map_pieces]
    exact reread.symm
  · rw [reread.equations_eq, Vocabulary.equations_eq_filterMap_pieces]
  · rintro finite s loaded rfl rfl
    rw [reread.equations_eq,
      Sheet.perform_write_read s.vocabulary s.source finite, source_read]
    exact ⟨_, Sheet.perform_write loaded ws, Sheet.source_withSource loaded _,
      Sheet.equations_withSource loaded _⟩

/-- A sheet and a table take a value and refuse an unknown name alike. -/
theorem LineTable.rereads_after_writes_sample :
    ∃ s', perform (attempt Sheet.write)
        ((Sheet.new .standard).load "a = 2 ';' c = 1\r\nb = a+c\r".toList)
        [(['c'], 1.5), (['x'], 1)] =
          (s', [none, some (.unknownVariable ['x'])]) ∧
      s'.source = "a = 2 ';' c = 1.5\r\nb = a+c\r".toList ∧
      s'.equations = [⟨['b'], "a+c".toList⟩] := by
  obtain ⟨t, failures, run, -, -, -, -, inStep⟩ := rereads_after_writes .builtIn
    "a = 2 ';' c = 1\r\nb = a+c\r".toList [(['c'], 1.5), (['x'], 1)]
  have table : perform (attempt (write .builtIn))
      (read .builtIn "a = 2 ';' c = 1\r\nb = a+c\r".toList)
      [(['c'], 1.5), (['x'], 1)] =
        (read .builtIn "a = 2 ';' c = 1.5\r\nb = a+c\r".toList,
          [none, some (.unknownVariable ['x'])]) := by decide +kernel
  obtain ⟨rfl, rfl⟩ := Prod.mk.inj (run.symm.trans table)
  obtain ⟨s', sheet, source, equations⟩ := inStep (by decide +kernel)
    ((Sheet.new .standard).load "a = 2 ';' c = 1\r\nb = a+c\r".toList)
    (by decide) rfl rfl
  refine ⟨s', sheet, source.trans (source_read _ _), equations.trans ?_⟩
  decide +kernel

/-- What is no number is written by its name, which no later write finds a slot
in. -/
example : perform (attempt (LineTable.write .builtIn))
    (.read .builtIn "a = 2 'm".toList)
    [(['a'], Sheet.noNumber), (['a'], 1)] =
      (.read .builtIn "a = NaN 'm".toList,
       [none, some (.unknownVariable ['a'])]) := by
  decide +kernel

end Worksheet

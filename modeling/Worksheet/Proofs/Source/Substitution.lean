import Mathlib.Data.List.Basic
import Worksheet.Proofs.Source.Line
import Worksheet.Proofs.Source.Variables
import Worksheet.Proofs.Text.Row

/-!
# Writing a value

Writing a finite value fills one slot of one line. Reading the new source finds
the new table again: the value in its place, with kind, name and unit, unless
what follows a bare number continues the new one, and everything else as it was.
-/

namespace Worksheet

open Text

/-! ## Filled tables -/

theorem replaceFirst?_eq_none {α : Type} {f : α → Option α} {as : List α}
    (h : replaceFirst? f as = none) : ∀ x ∈ as, f x = none := by
  induction as with
  | nil => simp
  | cons a as ih =>
    rw [replaceFirst?] at h
    split at h
    · cases h
    · next hnone =>
      intro x hx
      rcases List.mem_cons.1 hx with rfl | hx
      · exact hnone
      · exact ih (Option.map_eq_none_iff.1 h) x hx

theorem Line.fill?_eq_none {v : Vocabulary} {l : Line} {name literal : Text}
    (h : l.fill? v name literal = none) :
    ∀ c ∈ l.clauses, c.statement.declares name = false := by
  unfold Line.fill? at h
  split at h
  · cases h
  next noFirst =>
  have unreplaced : replaceFirst? (·.fill? name literal) l.clauses = none := by
    cases hreplaced : replaceFirst? (·.fill? name literal) l.clauses with
    | none => rfl
    | some cs =>
      obtain ⟨before, a, b, after, -, rfl, -⟩ :=
        Line.replaceFirst?_eq_some hreplaced
      cases before with
      | nil => exact absurd hreplaced (noFirst b after)
      | cons c before => exact absurd hreplaced (noFirst c _)
  intro c hc
  exact Clause.fill?_eq_none.1 (replaceFirst?_eq_none unreplaced c hc)

namespace LineTable

/-- A row of a text as a row of the table. -/
def readRow (v : Vocabulary) (r : Row) : LineRow :=
  ⟨.read v r.content, r.ending⟩

/-- How a literal comes into the line table of a source: the first line that
declares the name is filled, and the other rows stay. -/
structure Filled (v : Vocabulary) (name literal source : Text) (t' : LineTable)
    (above : List Row) (content : Text) (ending : Ending) (line' : Line)
    (below : List Row) : Prop where
  rows_eq : rows source = above ++ ⟨content, ending⟩ :: below
  skipped : ∀ r ∈ above, ∀ c ∈ (Line.read v r.content).clauses,
    c.statement.declares name = false
  fill : (Line.read v content).fill? v name literal = some line'
  refilled : t' = above.map (readRow v) ++
    ⟨line', ending⟩ :: below.map (readRow v)

variable {v : Vocabulary} {source name literal : Text} {t t' : LineTable}

theorem filled_of_fill? (h : (read v source).fill? v name literal = some t') :
    ∃ above content ending line' below,
      Filled v name literal source t' above content ending line' below := by
  obtain ⟨above, row, row', below, split, rfl, hfill, habove⟩ :=
    Line.replaceFirst?_eq_some h
  obtain ⟨line', fill, rfl⟩ := Option.map_eq_some_iff.1 hfill
  obtain ⟨above, rest, rows_eq, rfl, hrest⟩ := List.map_eq_append_iff.1 split
  obtain ⟨r, below, rfl, rfl, rfl⟩ := List.map_eq_cons_iff.1 hrest
  refine ⟨above, r.content, r.ending, line', below, rows_eq, ?_, fill, rfl⟩
  intro r' hr'
  have unfilled := habove (readRow v r') (List.mem_map_of_mem hr')
  exact Line.fill?_eq_none (Option.map_eq_none_iff.1 unfilled)

theorem fill?_of_setValue {x : Float} (h : t.setValue v name x = .ok t') :
    t.fill? v name (Decimal.plain x) = some t' := by
  unfold setValue at h
  split at h
  · next hfill =>
    cases h
    exact hfill
  · cases h

/-! ## Positions -/

/-- The place of the first clause that declares a name. -/
def clauseOf (name : Text) (r : LineRow) : Option Nat :=
  r.line.clauses.findIdx? (·.statement.declares name)

theorem position?_eq (t : LineTable) (name : Text) :
    t.position? name =
      (t.map (clauseOf name)).zipIdx.findSome? fun (j, i) => j.map fun j =>
        (i, j) := by
  rw [List.zipIdx_map, List.findSome?_map]
  rfl

theorem findIdx?_around {α : Type} {p : α → Bool} {before : List α} {a : α}
    (skipped : ∀ x ∈ before, p x = false) (found : p a = true)
    (after : List α) :
    (before ++ a :: after).findIdx? p = some before.length := by
  have none : before.findIdx? p = none := by
    simpa [List.findIdx?_eq_none_iff] using skipped
  rw [List.findIdx?_append, none, List.findIdx?_cons, found]
  simp

theorem findIdx?_replace {α : Type} {p : α → Bool} {a b : α} (same : p a = p b)
    (before after : List α) :
    (before ++ a :: after).findIdx? p = (before ++ b :: after).findIdx? p := by
  simp only [List.findIdx?_append, List.findIdx?_cons, same]

theorem declares_of_ne {s : Statement} {other : Text}
    (h : s.name? ≠ some other) :
    s.declares other = false := by
  simp [Statement.declares, h]

theorem findSome?_around {before after : List (Option Nat)} {j : Nat}
    (skipped : ∀ x ∈ before, x = none) :
    (before ++ some j :: after).zipIdx.findSome?
      (fun (j, i) => j.map fun j => (i, j)) =
      some (before.length, j) := by
  have none :
      before.zipIdx.findSome? (fun (j, i) => j.map fun j => (i, j)) = none := by
    rw [List.findSome?_eq_none_iff]
    rintro ⟨x, i⟩ hx
    have mem : x ∈ before := List.fst_mem_of_mem_zipIdx hx
    rw [skipped x mem]
    rfl
  rw [List.zipIdx_append, List.findSome?_append, none]
  simp

section

variable {above below : List Row} {content : Text} {ending : Ending}
  {line' : Line} {before after : List Clause} {clause : Clause} {slot : Slot}

theorem Filled.read_eq
    (h : Filled v name literal source t' above content ending line' below) :
    read v source =
      above.map (readRow v) ++ readRow v ⟨content, ending⟩ ::
        below.map (readRow v) := by
  rw [read, h.rows_eq, List.map_append]
  rfl

theorem source_map_readRow (rs : List Row) :
    LineTable.source (rs.map (readRow v)) = rs.flatMap Row.text := by
  simp only [LineTable.source, List.flatMap_map, readRow, Line.text_read]
  rfl

theorem Filled.source_refilled
    (h : Filled v name literal source t' above content ending line' below) :
    t'.source = above.flatMap Row.text ++
      (line'.text ++ ending.text ++ below.flatMap Row.text) := by
  rw [h.refilled, LineTable.source, List.flatMap_append, List.flatMap_cons,
    ← source_map_readRow (v := v) above, ← source_map_readRow (v := v) below]
  rfl

/-- The literal goes to the place of the first declaration. -/
theorem Filled.position?
    (h : Filled v name literal source t' above content ending line' below)
    (line : Line.Filled v name literal
      (.read v content) line' before clause slot after) :
    (read v source).position? name = some (above.length, before.length) := by
  have declares : clause.statement.declares name = true := by
    simp [Statement.declares, line.name_eq, line.slot_eq]
  have found :
      clauseOf name (readRow v ⟨content, ending⟩) = some before.length := by
    rw [clauseOf, readRow, line.clauses]
    exact findIdx?_around line.skipped declares after
  rw [position?_eq, h.read_eq, List.map_append, List.map_cons, found,
    findSome?_around]
  · simp
  · intro x hx
    simp only [List.map_map, List.mem_map] at hx
    obtain ⟨r, hr, rfl⟩ := hx
    exact List.findIdx?_eq_none_iff.2 (h.skipped r hr)

/-- Other names are declared where they were. -/
theorem Filled.position?_of_ne
    (h : Filled v name literal source t' above content ending line' below)
    (line : Line.Filled v name literal
      (.read v content) line' before clause slot after)
    (mild : Mild literal) {other : Text} (ne : other ≠ name) :
    t'.position? other = (read v source).position? other := by
  -- Neither the old statement nor the new one is about another name.
  have old : clause.statement.declares other = false :=
    declares_of_ne (by simpa [line.name_eq] using Ne.symm ne)
  have new :
      (v.classify (!before.isEmpty) (slot.fill literal)).declares other =
        false :=
    declares_of_ne (by simpa [line.name?_refilled mild] using Ne.symm ne)
  have same : clauseOf other ⟨line', ending⟩ =
      clauseOf other (readRow v ⟨content, ending⟩) := by
    rw [clauseOf, clauseOf, readRow, line.clauses, line.refilled]
    refine findIdx?_replace ?_ before after
    exact new.trans old.symm
  rw [position?_eq, position?_eq, h.read_eq, h.refilled]
  simp only [List.map_append, List.map_cons, same]

/-- The literal is exchanged in the source, and nothing else. -/
theorem Filled.source_eq
    (h : Filled v name literal source t' above content ending line' below)
    (line : Line.Filled v name literal
      (.read v content) line' before clause slot after) :
    ∃ front back, source = front ++ (slot.literal ++ back) ∧
      t'.source = front ++ (literal ++ back) ∧
      front.size = (LineTable.source (above.map (readRow v))).size +
        (Line.lead before ++ slot.before).size := by
  obtain ⟨old, new⟩ := line.text
  rw [Line.text_read] at old
  generalize (Line.read v content).comment = comment at old new
  refine ⟨above.flatMap Row.text ++ (Line.lead before ++ slot.before),
    slot.after ++ Line.rear after ++ comment ++ ending.text ++
      below.flatMap Row.text, ?_, ?_, ?_⟩
  · rw [← flatMap_text_rows source, h.rows_eq, List.flatMap_append,
      List.flatMap_cons, Row.text, old]
    simp
  · rw [h.source_refilled, new]
    simp
  · rw [source_map_readRow, size_append]

/-- Reading the new source gives the new table. -/
theorem Filled.read_source
    (h : Filled v name literal source t' above content ending line' below)
    (line : Line.Filled v name literal
      (.read v content) line' before clause slot after)
    (mild : Mild literal) : read v t'.source = t' := by
  obtain ⟨old, new⟩ := line.text
  rw [Line.text_read] at old
  have rowsOf :
      t'.source =
        (above ++ ⟨line'.text, ending⟩ :: below).flatMap Row.text := by
    rw [h.source_refilled, List.flatMap_append, List.flatMap_cons]
    rfl
  have areRows := areRows_rows source
  rw [h.rows_eq] at areRows
  -- The literal ends no row, so the new line is one row, as the old one was.
  have apart {c : Char} (hc : isMild c = false) : c ∉ literal := by
    intro mem
    rw [mild.chars c mem] at hc
    cases hc
  have sound : Row.Sound ⟨line'.text, ending⟩ := by
    have old' := areRows.sound ⟨content, ending⟩ (by simp)
    rw [new]
    rw [old] at old'
    exact old'.replace mild.ne (apart (by decide)) (apart (by decide))
  have ne : line'.text ≠ [] := by
    rw [new]
    simp [mild.ne]
  rw [read, rowsOf, rows_flatMap_text (areRows.replace sound ne),
    List.map_append, List.map_cons, h.refilled, ← line.reread]
  rfl

/-- What other names declare stays. -/
theorem Filled.find?_of_ne
    (h : Filled v name literal source t' above content ending line' below)
    (line : Line.Filled v name literal
      (.read v content) line' before clause slot after)
    (mild : Mild literal) {other : Text} (ne : other ≠ name)
    (explicitOnly : Bool) :
    (v.variableTable explicitOnly t'.source).find? other =
      (v.variableTable explicitOnly source).find? other := by
  obtain ⟨old, new⟩ := line.statements
  have oldName : clause.statement.name? ≠ some other := by
    simpa [line.name_eq] using Ne.symm ne
  have newName : (v.classify (!before.isEmpty) (slot.fill literal)).name? ≠
      some other := by
    simpa [line.name?_refilled mild] using Ne.symm ne
  have same : declaredUnder other line'.statements =
      declaredUnder other (Line.read v content).statements := by
    rw [old, new, declaredUnder_append, declaredUnder_append,
      declaredUnder_cons_of_ne oldName, declaredUnder_cons_of_ne newName]
  rw [Vocabulary.find?_variableTable, Vocabulary.find?_variableTable,
    h.read_source line mild, h.read_eq, h.refilled]
  simp only [List.flatMap_append, List.flatMap_cons, declaredUnder_append, same,
    readRow]

end

/-! ## Finite values -/

/-- Writing a finite value fills a line of the table. -/
theorem filled_of_setValue {x : Float} (finite : x.isFinite = true)
    (h : (read v source).setValue v name x = .ok t') :
    Mild (Decimal.plain x) ∧
      ∃ above content ending line' below before clause slot after,
      Filled v name (Decimal.plain x) source t' above content ending
        line' below ∧
      Line.Filled v name (Decimal.plain x)
        (.read v content) line' before clause slot after := by
  obtain ⟨n, written, -, htext, -⟩ := Decimal.exists_plain finite
  have mild : Mild (Decimal.plain x) := htext ▸ .of_written written
  obtain ⟨above, content, ending, line', below, filled⟩ :=
    filled_of_fill? (fill?_of_setValue h)
  obtain ⟨before, clause, slot, after, line⟩ :=
    Line.filled_of_fill? mild filled.fill
  exact ⟨mild, above, content, ending, line', below, before, clause, slot,
    after, filled, line⟩

/-- What writing a literal to a name leaves of a source: it stands for the old
literal of the first declaration of the name, the table of the new source
differs from the old one in one row, that row in one statement, and no other
name is affected. -/
structure Frame (v : Vocabulary) (name literal source : Text) (t' : LineTable)
    (i j : Nat) (row row' : LineRow) (s s' : Statement) (slot : Slot)
    (start : Nat) : Prop where
  position : (read v source).position? name = some (i, j)
  row_eq : (read v source)[i]? = some row
  rows : t' = (read v source).set i row'
  exchanged : ∃ front back, source = front ++ (slot.literal ++ back) ∧
    t'.source = front ++ (literal ++ back) ∧
    front.size = (LineTable.source ((read v source).take i)).size + start
  reread : read v t'.source = t'
  ending : row'.ending = row.ending
  line : Line.Frame v literal row.line row'.line j s s' slot start
  name_eq : s.name? = some name
  name_eq' : s'.name? = some name
  others : ∀ other, other ≠ name →
    t'.position? other = (read v source).position? other ∧
      ∀ explicitOnly, (v.variableTable explicitOnly t'.source).find? other =
        (v.variableTable explicitOnly source).find? other

theorem Filled.frame {above below : List Row} {content : Text} {ending : Ending}
    {line' : Line} {before after : List Clause} {clause : Clause} {slot : Slot}
    (h : Filled v name literal source t' above content ending line' below)
    (line : Line.Filled v name literal
      (.read v content) line' before clause slot after)
    (mild : Mild literal) :
    Frame v name literal source t' above.length before.length
      (readRow v ⟨content, ending⟩)
      ⟨line', ending⟩ clause.statement
      (v.classify (!before.isEmpty) (slot.fill literal)) slot
      (Line.lead before ++ slot.before).size := by
  have place : (above.map (readRow v)).length = above.length :=
    List.length_map _
  refine ⟨h.position? line, ?_, ?_, ?_, h.read_source line mild, rfl,
    line.frame, line.name_eq, line.name?_refilled mild, ?_⟩
  · rw [h.read_eq, ← place]
    simp
  · rw [h.read_eq, h.refilled, ← place]
    simp
  · obtain ⟨front, back, old, new, size⟩ := h.source_eq line
    refine ⟨front, back, old, new, ?_⟩
    rw [h.read_eq, ← place, List.take_left, size]
  · intro other ne
    exact ⟨h.position?_of_ne line mild ne, h.find?_of_ne line mild ne⟩

/-- Writing a finite value exchanges the literal of the first declaration of its
name and nothing else: the other rows, the other statements of the line and its
marks and comment stay, the places of the literals behind move by the difference
of the sizes, and no other name is affected. -/
theorem setValue_frame {x : Float} (finite : x.isFinite = true)
    (h : (read v source).setValue v name x = .ok t') :
    ∃ i j row row' s s' slot start,
      Frame v name (Decimal.plain x) source t' i j row row' s s'
        slot start := by
  obtain ⟨mild, above, content, ending, line', below, before, clause, slot,
      after, filled, line⟩ :=
    filled_of_setValue finite h
  exact ⟨_, _, _, _, _, _, _, _, filled.frame line mild⟩

/-- Writing to the first of two declarations of a line leaves the name of the
second where it was. -/
theorem setValue_frame_sample :
    (1.5 : Float).isFinite = true ∧
      (read .builtIn "a = 2 m ';' b = 3".toList).setValue .builtIn ['a'] 1.5 =
        .ok (read .builtIn "a = 1.5 m ';' b = 3".toList) ∧
      (read .builtIn "a = 1.5 m ';' b = 3".toList).position? ['b'] =
        (read .builtIn "a = 2 m ';' b = 3".toList).position? ['b'] := by
  have finite : (1.5 : Float).isFinite = true := by decide +kernel
  have written :
      (read .builtIn "a = 2 m ';' b = 3".toList).setValue .builtIn ['a'] 1.5 =
      .ok (read .builtIn "a = 1.5 m ';' b = 3".toList) := by decide +kernel
  obtain ⟨i, j, row, row', s, s', slot, start, frame⟩ :=
    setValue_frame finite written
  exact ⟨finite, written, (frame.others ['b'] (by decide)).1⟩

/-- After writing a finite value, the statement is read with the same kind, name
and unit and has the value, always in braces, and as a bare number just when
what follows the number does not continue the new one. With the built-in units
only an `e` with a digit continues it. -/
theorem setValue_round_trip {x : Float} (finite : x.isFinite = true)
    (h : (read v source).setValue v name x = .ok t') :
    ∃ i j row row' s s' slot,
      (read v source).position? name = some (i, j) ∧
      (read v source)[i]? = some row ∧ t' = (read v source).set i row' ∧
      row'.line = .read v row'.line.text ∧
      row.line.statements[j]? = some s ∧
      row'.line.statements = row.line.statements.set j s' ∧
      s.slot? = some slot ∧ s.name? = some name ∧
      (Vocabulary.Braced s.body → Statement.Revalued s s' x) ∧
      (¬Vocabulary.Braced s.body → ∃ n rest,
        Decimal.Numeral.read? s.body = some (n, rest) ∧ slot.literal = n.text ∧
        s.body = slot.literal ++ rest ∧
        (Statement.Revalued s s' x ↔
          Decimal.numeralSize (Decimal.plain x ++ rest) =
            (Decimal.plain x).size) ∧
        (v = .builtIn →
          (Decimal.numeralSize (Decimal.plain x ++ rest) =
            (Decimal.plain x).size ↔
            ¬∃ mark digit after, rest = mark :: digit :: after ∧
              (mark = 'e' ∨ mark = 'E') ∧
              digit.isDigit = true))) := by
  obtain ⟨mild, above, content, ending, line', below, before, clause, slot,
      after, filled, line⟩ :=
    filled_of_setValue finite h
  obtain ⟨n, written, noPower, htext, hvalue⟩ := Decimal.exists_plain finite
  have frame := filled.frame line mild
  have slot_eq := line.slot_eq
  rw [line.classified] at slot_eq
  refine ⟨_, _, _, _, _, _, slot, frame.position, frame.row_eq, frame.rows,
    frame.line.reread, frame.line.statement, frame.line.statements,
    line.slot_eq, line.name_eq, ?_, ?_⟩
  · intro braced
    rw [line.classified] at braced ⊢
    rw [← htext, ← hvalue]
    exact Vocabulary.classify_fill_braced slot_eq braced written
  · intro bare
    rw [line.classified] at bare ⊢
    obtain ⟨old, rest, read, literal, body, hunit, alone⟩ :=
      Vocabulary.classify_fill_bare slot_eq bare
    have numeral := Decimal.numeralSize_text_append_iff written (u := rest)
    have kept := alone n written
    rw [htext, hvalue] at kept
    rw [htext] at numeral
    refine ⟨old, rest, read, literal, body, kept.trans numeral.symm, ?_⟩
    -- The built-in characters leave of the continuations only a power without a
    -- sign.
    rintro rfl
    obtain ⟨digit, point, power⟩ := Vocabulary.builtIn_after_number hunit
    rw [numeral, ← power, ← htext]
    exact Decimal.Numeral.readWith?_text_append_iff Decimal.marksApart_isDigit
      written noPower digit point

/-- A value in braces, with a glued unit that would continue a bare number, is
read back. -/
theorem setValue_round_trip_sample :
    (1.5 : Float).isFinite = true ∧
      (read .builtIn "a = ?{2}e2".toList).setValue .builtIn ['a'] 1.5 =
        .ok (read .builtIn "a = ?{1.5}e2".toList) ∧
      ∃ row' s', read .builtIn "a = ?{1.5}e2".toList =
          (read .builtIn "a = ?{2}e2".toList).set 0 row' ∧
        row'.line.statements[0]? = some s' ∧ s'.value? = some 1.5 := by
  have finite : (1.5 : Float).isFinite = true := by decide +kernel
  have written :
      (read .builtIn "a = ?{2}e2".toList).setValue .builtIn ['a'] 1.5 =
      .ok (read .builtIn "a = ?{1.5}e2".toList) := by decide +kernel
  obtain ⟨i, j, row, row', s, s', slot, position, hrow, rows, -, hs, statements,
      -, -, braced, -⟩ :=
    setValue_round_trip finite written
  have first :
      (read .builtIn "a = ?{2}e2".toList).position? ['a'] = some (0, 0) := by
    decide +kernel
  rw [first] at position
  cases position
  have body : ((read .builtIn "a = ?{2}e2".toList)[0]?.bind fun row =>
      row.line.statements[0]?.map Statement.body) = some "?{2}e2".toList := by
    decide +kernel
  rw [hrow, Option.bind_some, hs, Option.map_some, Option.some.injEq] at body
  have opens : Vocabulary.Braced s.body := by
    rw [body]
    exact ⟨[], ['2'], ['e', '2'], rfl, by decide, rfl⟩
  have there : row'.line.statements[0]? = some s' := by
    rw [statements, List.getElem?_set_self', hs]
    rfl
  exact ⟨finite, written, row', s', rows, there, (braced opens).value⟩

end LineTable
end Worksheet

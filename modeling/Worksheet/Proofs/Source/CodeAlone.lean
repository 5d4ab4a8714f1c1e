import Worksheet.Proofs.Source.Batch
import Worksheet.Proofs.Source.Comments

/-!
# What the code alone decides

A source is read, written to and expanded by its code alone. Sources that differ
in their comments only declare the same variables and give the same equations; a
write fails on both or changes the code of both alike, and leaves the comments
of each as they were, so that any further writes do the same.
-/

namespace Worksheet

open Text

/-! ## Comments -/

/-- The comments of a source, row by row, each with the ending of its row;
empty where a row has none. -/
def comments (source : Text) : List Text :=
  (rows source).map fun r => (Cut.ofText r.text).comment

/-- Pieces of code, each followed by a comment. -/
def withComments (codes comments : List Text) : Text :=
  (List.zipWith (· ++ ·) codes comments).flatten

theorem withComments_map {α : Type} (code comment : α → Text) (as : List α) :
    withComments (as.map code) (as.map comment) =
      as.flatMap fun a => code a ++ comment a := by
  rw [withComments, List.zipWith_map, List.zipWith_self, List.flatMap_def]

/-- A row with a comment keeps its ending behind the comment. -/
theorem Cut.Cuts.append_ending {k : Cut} {s : Text} (cuts : k.Cuts s)
    (some : k.comment ≠ []) (e : Ending) :
    Cut.Cuts { k with comment := k.comment ++ e.text } (s ++ e.text) := by
  obtain ⟨begins, unmarked⟩ := cuts.comment.resolve_left some
  refine ⟨?_, cuts.segments,
    .inr ⟨?_, UnitAlias.not_mark_append_ending unmarked e⟩⟩
  · rw [← cuts.text, Cut.text, Cut.text, List.append_assoc]
  · obtain ⟨c, rest, comment⟩ := List.exists_cons_of_ne_nil some
    rw [comment] at begins ⊢
    exact begins

theorem Cut.comment_append_ending_of_nil {s : Text}
    (none : (Cut.ofText s).comment = []) (e : Ending) :
    (Cut.ofText (s ++ e.text)).comment = [] := by
  fun_induction Cut.ofText s with
  | case1 => cases e <;> rfl
  | case2 s rest ih => exact ih none
  | case3 c s noMark begins => cases none
  | case4 c s noMark code rest ih =>
    have code : beginsComment c = false := by simpa using code
    rw [List.cons_append, Cut.ofText_cons code]
    exact ih none

/-- The comment of a row of a table, with the ending of the row. -/
def LineRow.comment (r : LineRow) : Text :=
  if r.line.comment = [] then [] else r.line.comment ++ r.ending.text

theorem comment_readRow (v : Vocabulary) (r : Row) :
    (LineTable.readRow v r).comment = (Cut.ofText r.text).comment := by
  have cuts := Cut.ofText_eq_iff.1 (rfl : Cut.ofText r.content = _)
  have read :
      (Line.read v r.content).comment = (Cut.ofText r.content).comment := rfl
  rw [LineRow.comment, LineTable.readRow, read, Row.text]
  split
  · next none => rw [Cut.comment_append_ending_of_nil none]
  · next some => rw [Cut.ofText_eq_iff.2 (cuts.append_ending some r.ending)]

theorem comments_eq (v : Vocabulary) (source : Text) :
    comments source = (LineTable.read v source).map LineRow.comment := by
  rw [comments, LineTable.read, List.map_map]
  exact List.map_congr_left fun r _ => (comment_readRow v r).symm

/-! ## Reading -/

theorem map_eq_of_forall₂ {α β : Type} {R : α → α → Prop} {f : α → β}
    {as bs : List α} (h : List.Forall₂ R as bs)
    (same : ∀ a b, R a b → f a = f b) : as.map f = bs.map f := by
  induction h with
  | nil => rfl
  | cons related _ ih => rw [List.map_cons, List.map_cons, same _ _ related, ih]

section Reading

variable {v : Vocabulary} {s t : Text} (other : OtherComments s t)

include other

/-- What the clauses of a line tell does not depend on its comment. -/
theorem map_line_eq {α : Type} {f : Line → α}
    (told : ∀ l l' : Line, l.clauses = l'.clauses → f l = f l') :
    (LineTable.read v s).map (fun r => f r.line) =
      (LineTable.read v t).map fun r => f r.line :=
  map_eq_of_forall₂ ((otherComments_iff v).1 other) fun _ _ row =>
    told _ _ row.clauses

theorem equations_eq : v.equations s = v.equations t := by
  have gathered (source : Text) : v.equations source =
      ((LineTable.read v source).map fun r =>
        r.line.equation?).filterMap id := by
    rw [Vocabulary.equations, lines, LineTable.read, List.map_map,
      List.filterMap_map, List.filterMap_map]
    rfl
  rw [gathered, gathered,
    map_line_eq other fun _ _ => Line.equation?_of_clauses]

theorem variableTable_eq (explicitOnly : Bool) :
    v.variableTable explicitOnly s = v.variableTable explicitOnly t := by
  have gathered (source : Text) : v.declarations explicitOnly source =
      (((LineTable.read v source).map fun r => r.line.statements).flatMap
        (·.filterMap Statement.variable?)).filter fun x =>
        x.origin == .explicit || !explicitOnly := by
    rw [Vocabulary.declarations, lines, LineTable.read, List.map_map,
      List.flatMap_map, List.flatMap_map]
    rfl
  rw [Vocabulary.variableTable, Vocabulary.variableTable, gathered, gathered,
    map_line_eq other fun _ _ => Line.statements_of_clauses]

end Reading

/-! ## Expanding -/

/-- The lines of a source, each with the ending of its row. -/
def rowLines (v : Vocabulary) (source : Text) : List Line :=
  (rows source).map fun r => .read v r.text

/-- Rows that say the same do so with their endings. -/
theorem SameCode.clauses_text {v : Vocabulary} {r r' : Row}
    (h : SameCode (LineTable.readRow v r) (LineTable.readRow v r')) :
    (Line.read v r.text).clauses = (Line.read v r'.text).clauses := by
  by_cases none : (Line.read v r.content).comment = []
  · rw [h.eq_of_nil none]
  have some' : (Line.read v r'.content).comment ≠ [] :=
    mt h.comment_eq_nil_iff.2 none
  have cut := Line.read_of_cuts (v := v)
    ((Line.cuts_read v r.content).append_ending none r.ending)
  have cut' := Line.read_of_cuts (v := v)
    ((Line.cuts_read v r'.content).append_ending some' r'.ending)
  have texts := congrArg (List.map Clause.text) h.clauses
  rw [Row.text, Row.text, cut.1, cut'.1]
  exact congrArg (Line.clausesOf v) texts

/-- What the clauses of a line with the ending of its row tell does not depend
on its comment. -/
theorem map_rowLines_eq {v : Vocabulary} {s t : Text}
    (other : OtherComments s t) {α : Type} {f : Line → α}
    (told : ∀ l l' : Line, l.clauses = l'.clauses → f l = f l') :
    (rowLines v s).map f = (rowLines v t).map f := by
  have tables := (otherComments_iff v).1 other
  rw [LineTable.read, LineTable.read, List.forall₂_map_left_iff,
    List.forall₂_map_right_iff] at tables
  rw [rowLines, rowLines, List.map_map, List.map_map]
  exact map_eq_of_forall₂ tables fun _ _ row =>
    told _ _ (SameCode.clauses_text row)

/-- The code of a line as it is handed on, with the aliases expanded. -/
def expandedCode (aliases : List UnitAlias) (l : Line) : Text :=
  if aliases.isEmpty then l.code else UnitAlias.expandAfter aliases [] 0 l.code

/-- The aliases that are expanded in a source. -/
def expandable (v : Vocabulary) (aliases : List UnitAlias) (source : Text) :
    List UnitAlias :=
  UnitAlias.enabled aliases ((rowLines v source).flatMap fun l =>
    l.statements.filterMap Statement.name?)

/-- The lines of a source with the endings of their rows make up the source. -/
theorem flatMap_text_rowLines (v : Vocabulary) (source : Text) :
    (rowLines v source).flatMap Line.text = source := by
  conv => rhs; rw [← flatMap_text_rows source]
  simp only [rowLines, List.flatMap_map, Line.text_read]

/-- Comments are handed on as they are, behind the expanded code. -/
theorem expand_eq (v : Vocabulary) (aliases : List UnitAlias) (source : Text) :
    UnitAlias.expand v aliases source =
      withComments ((rowLines v source).map
        (expandedCode (expandable v aliases source)))
        (comments source) := by
  have commented : comments source = (rowLines v source).map Line.comment := by
    rw [comments, rowLines, List.map_map]
    rfl
  rw [commented, withComments_map]
  show (if (expandable v aliases source).isEmpty then source
    else (rowLines v source).flatMap fun l =>
      UnitAlias.expandAfter (expandable v aliases source)
        [] 0 l.code ++ l.comment) = _
  unfold expandedCode
  split
  · exact (flatMap_text_rowLines v source).symm
  · rfl

/-- Sources that differ in their comments are handed on with the same code. -/
theorem expand_withComments {v : Vocabulary} {s t : Text}
    (other : OtherComments s t) (aliases : List UnitAlias) :
    ∃ codes, codes.length = (comments s).length ∧
      codes.length = (comments t).length ∧
      UnitAlias.expand v aliases s = withComments codes (comments s) ∧
      UnitAlias.expand v aliases t = withComments codes (comments t) := by
  have length (source : Text) :
      (rowLines v source).length = (comments source).length := by
    rw [rowLines, comments, List.length_map, List.length_map]
  have aliasesEq : expandable v aliases s = expandable v aliases t := by
    have names := map_rowLines_eq (v := v) other
      (f := fun l => l.statements.filterMap Statement.name?)
      fun l l' same => by rw [Line.statements_of_clauses same]
    rw [expandable, expandable, List.flatMap_def, List.flatMap_def, names]
  have codes :=
    map_rowLines_eq (v := v) other (f := expandedCode (expandable v aliases s))
      fun l l' same => by
        rw [expandedCode, expandedCode, Line.code_of_clauses same]
  refine ⟨(rowLines v s).map (expandedCode (expandable v aliases s)), ?_, ?_,
    expand_eq v aliases s, ?_⟩
  · rw [List.length_map, length]
  · rw [codes, List.length_map, length]
  · rw [expand_eq, codes, aliasesEq]

/-! ## Writing -/

/-- Lists that are related element by element are replaced in at the same
place. -/
theorem replaceFirst?_related {α : Type} {R : α → α → Prop} {f g : α → Option α}
    {as bs : List α} (h : List.Forall₂ R as bs)
    (step : ∀ a ∈ as, ∀ b ∈ bs, R a b → Option.Rel R (f a) (g b)) :
    Option.Rel (List.Forall₂ R) (replaceFirst? f as) (replaceFirst? g bs) := by
  induction h with
  | nil => exact .none
  | @cons a b as bs related rest ih =>
    have later := ih fun a' ha b' hb =>
      step a' (List.mem_cons_of_mem a ha) b' (List.mem_cons_of_mem b hb)
    have first := step a List.mem_cons_self b List.mem_cons_self related
    rw [replaceFirst?, replaceFirst?]
    generalize f a = replaced, g b = replaced' at first ⊢
    generalize replaceFirst? f as = behind,
      replaceFirst? g bs = behind' at later ⊢
    cases first with
    | some here => exact .some (.cons here rest)
    | none =>
      cases later with
      | some there => exact .some (.cons related there)
      | none => exact .none

section Writing

variable {v : Vocabulary} {name literal : Text}

/-- Rows that say the same take a literal at the same place, and say the same
then. -/
theorem SameCode.fillRow {r r' : LineRow} (same : SameCode r r')
    (mild : Mild literal) (reread : r.line = .read v r.line.text)
    (reread' : r'.line = .read v r'.line.text) :
    Option.Rel SameCode (LineTable.fillRow v name literal r)
      (LineTable.fillRow v name literal r') := by
  obtain ⟨clauses, opener, ending, closed⟩ := same
  rw [LineTable.fillRow, LineTable.fillRow]
  cases filled : r.line.fill? v name literal with
  | none =>
    have undeclared := Line.fill?_eq_none filled
    rw [clauses] at undeclared
    rw [Line.fill?_of_none undeclared]
    exact .none
  | some l =>
    obtain ⟨before, clause, slot, after, line⟩ :=
      Line.filled_of_reread reread mild filled
    obtain ⟨l', filled', line'⟩ :=
      Line.filled_around reread' mild (clauses.symm.trans line.clauses)
        line.skipped line.slot_eq line.name_eq
    rw [filled']
    refine .some ⟨line.refilled.trans line'.refilled.symm, ?_, ?_, closed⟩
    · rw [line.comment, line'.comment, opener]
    · rw [line.comment]
      exact ending

theorem fill?_related {s t : Text} (other : OtherComments s t)
    (mild : Mild literal) :
    Option.Rel (List.Forall₂ SameCode)
      ((LineTable.read v s).fill? v name literal)
      ((LineTable.read v t).fill? v name literal) :=
  replaceFirst?_related ((otherComments_iff v).1 other) fun _ hr _ hr' same =>
    same.fillRow mild (LineTable.reread_of_mem hr) (LineTable.reread_of_mem hr')

/-- Writing leaves every comment. -/
theorem comments_fill? {source : Text} {t : LineTable} (mild : Mild literal)
    (fill : (LineTable.read v source).fill? v name literal = some t) :
    comments t.source = comments source := by
  rw [comments_eq v, comments_eq v, LineTable.read_source_of_fill? mild fill]
  obtain ⟨above, content, ending, line', below, before, clause, slot, after,
      filled, line⟩ :=
    LineTable.exists_filled mild fill
  have comment : LineRow.comment ⟨line', ending⟩ =
      (LineTable.readRow v ⟨content, ending⟩).comment := by
    rw [LineRow.comment, LineRow.comment, LineTable.readRow, line.comment]
  rw [filled.refilled, filled.read_eq, List.map_append, List.map_append,
    List.map_cons, List.map_cons, comment]

end Writing

/-- Sources were rewritten to sources that differ in their comments, each with
the comments it had. -/
structure RewrittenAlike (s t s' t' : Text) : Prop where
  other : OtherComments s' t'
  comments_left : comments s' = comments s
  comments_right : comments t' = comments t

theorem RewrittenAlike.trans {s t s' t' s'' t'' : Text}
    (first : RewrittenAlike s t s' t') (second : RewrittenAlike s' t' s'' t'') :
    RewrittenAlike s t s'' t'' :=
  ⟨second.other, second.comments_left.trans first.comments_left,
    second.comments_right.trans first.comments_right⟩

namespace Sheet

/-- A write fails alike on sources that differ in their comments, or rewrites
both alike. -/
theorem assign_alike {s t : Text} (other : OtherComments s t) (v : Vocabulary)
    (name : Text) (x : Float) :
    (∃ e, assign v s name x = .error e ∧ assign v t name x = .error e) ∨
    ∃ s' t', assign v s name x = .ok s' ∧ assign v t name x = .ok t' ∧
      RewrittenAlike s t s' t' := by
  by_cases finite : x.isFinite = true
  swap
  · rw [assign, assign, if_neg finite, if_neg finite]
    exact .inl ⟨_, rfl, rfl⟩
  have mild := mild_plain x
  have related : Option.Rel (List.Forall₂ SameCode)
      ((LineTable.read v s).fill? v name (Decimal.plain x))
      ((LineTable.read v t).fill? v name (Decimal.plain x)) :=
    fill?_related other mild
  rw [assign_of_fill? finite, assign_of_fill? finite]
  generalize fill : (LineTable.read v s).fill? v name
    (Decimal.plain x) = filled,
    fill' : (LineTable.read v t).fill? v name (Decimal.plain x) =
      filled' at related
  cases related with
  | none => exact .inl ⟨_, rfl, rfl⟩
  | @some s' t' alike =>
    refine .inr ⟨_, _, rfl, rfl, ?_, comments_fill? mild fill,
      comments_fill? mild fill'⟩
    rw [otherComments_iff v, LineTable.read_source_of_fill? mild fill,
      LineTable.read_source_of_fill? mild fill']
    exact alike

/-- An attempt at a write has one answer on both and leaves both rewritten
alike. -/
theorem attempt_alike {s t s' t' : Text} (alike : RewrittenAlike s t s' t')
    (v : Vocabulary) (w : Text × Float) :
    (attempt (rewrite v) s' w).2 = (attempt (rewrite v) t' w).2 ∧
      RewrittenAlike s t (attempt (rewrite v) s' w).1
        (attempt (rewrite v) t' w).1 := by
  rcases assign_alike alike.other v w.1 w.2 with
    ⟨e, failed, failed'⟩ | ⟨_, _, wrote, wrote', next⟩
  · rw [attempt_of_error (f := rewrite v) failed,
      attempt_of_error (f := rewrite v) failed']
    exact ⟨rfl, alike⟩
  · rw [attempt_of_ok (f := rewrite v) wrote,
      attempt_of_ok (f := rewrite v) wrote']
    exact ⟨rfl, alike.trans next⟩

/-! ## Sheets -/

section

variable {s t : Sheet} (config : s.config = t.config)
  (loaded : s.stage ≠ .empty) (loaded' : t.stage ≠ .empty)
  (other : OtherComments s.source t.source)

include config loaded loaded' other

/-- A write to a sheet fails alike on both sheets, or rewrites their sources
alike. -/
theorem setVariable_alike (name : Text) (x : Float) :
    (∃ e, s.setVariable name x = .error e ∧ t.setVariable name x = .error e) ∨
    ∃ s' t', s.setVariable name x = .ok s' ∧ t.setVariable name x = .ok t' ∧
      RewrittenAlike s.source t.source s'.source t'.source := by
  have set := setVariable_withSource loaded s.source name x
  have set' := setVariable_withSource loaded' t.source name x
  rw [withSource_source] at set set'
  have vocabulary : t.vocabulary = s.vocabulary :=
    congrArg SheetConfig.vocabulary config.symm
  rw [set, set', vocabulary]
  rcases assign_alike other s.vocabulary name x with
    ⟨e, failed, failed'⟩ | ⟨_, _, wrote, wrote', alike⟩
  · rw [failed, failed']
    exact .inl ⟨e, rfl, rfl⟩
  · rw [wrote, wrote']
    refine .inr ⟨_, _, rfl, rfl, ?_⟩
    rw [source_withSource loaded, source_withSource loaded']
    exact alike

/-- A run of writes gives the same answers on both sheets and rewrites their
sources alike. -/
theorem perform_write_alike (ws : List (Text × Float)) :
    ∃ s' t' answers, perform (attempt write) s ws = (s', answers) ∧
      perform (attempt write) t ws = (t', answers) ∧
      RewrittenAlike s.source t.source s'.source t'.source := by
  have vocabulary : t.vocabulary = s.vocabulary :=
    congrArg SheetConfig.vocabulary config.symm
  obtain ⟨answers, alike⟩ :=
    perform_related (R := fun _ => RewrittenAlike s.source t.source)
      ⟨other, rfl, rfl⟩ fun _ w _ (_ : ws = _) _ _ alike =>
        attempt_alike alike s.vocabulary w
  rw [perform_write loaded, perform_write loaded', vocabulary, ← answers]
  refine ⟨_, _, _, rfl, rfl, ?_⟩
  rw [source_withSource loaded, source_withSource loaded']
  exact alike

end

/-- Sheets of one configuration whose sources differ in comments only have the
same variables, equations and result names. A write fails on both for the same
reason or rewrites both sources, and so does each write of a run; what comes of
it differs in comments only, which are those from before. The same code is
handed on by both, with the comments in it as they are. -/
theorem comments_irrelevant {s t : Sheet} (config : s.config = t.config)
    (loaded : s.stage ≠ .empty) (loaded' : t.stage ≠ .empty)
    (other : OtherComments s.source t.source) :
    (∀ explicitOnly,
      s.variableTable explicitOnly = t.variableTable explicitOnly) ∧
    s.equations = t.equations ∧
    s.resultNames = t.resultNames ∧
    (∀ name x,
      (∃ e, s.setVariable name x = .error e ∧ t.setVariable name x = .error e) ∨
      ∃ s' t', s.setVariable name x = .ok s' ∧ t.setVariable name x = .ok t' ∧
        RewrittenAlike s.source t.source s'.source t'.source) ∧
    (∀ ws, ∃ s' t' answers, perform (attempt write) s ws = (s', answers) ∧
      perform (attempt write) t ws = (t', answers) ∧
      RewrittenAlike s.source t.source s'.source t'.source) ∧
    ∃ codes, codes.length = (comments s.source).length ∧
      codes.length = (comments t.source).length ∧
      s.preprocessed = withComments codes (comments s.source) ∧
      t.preprocessed = withComments codes (comments t.source) := by
  have vocabulary : s.vocabulary = t.vocabulary :=
    congrArg SheetConfig.vocabulary config
  have equations : s.equations = t.equations := by
    rw [Sheet.equations, Sheet.equations, ← vocabulary]
    exact equations_eq other
  refine ⟨?_, equations, ?_, setVariable_alike config loaded loaded' other,
    perform_write_alike config loaded loaded' other, ?_⟩
  · intro explicitOnly
    rw [Sheet.variableTable, Sheet.variableTable, ← vocabulary]
    exact variableTable_eq other explicitOnly
  · rw [resultNames, resultNames, equations]
  · rw [preprocessed, preprocessed, ← vocabulary, ← config]
    exact expand_withComments other s.config.aliases

/-- A comment that reads like declarations, one of them of the alias that the
code is written with. -/
theorem comments_irrelevant_sample :
    ∃ s' t',
      ((Sheet.new .standard).load "a = 2kgf ';' b = 3 'wide".toList).setVariable
        ['b'] 10 = .ok s' ∧
      ((Sheet.new .standard).load
        "a = 2kgf ';' b = 3 'kgf = 7 ';' b = 8".toList).setVariable
          ['b'] 10 = .ok t' ∧
      s'.source = "a = 2kgf ';' b = 10 'wide".toList ∧
      t'.source = "a = 2kgf ';' b = 10 'kgf = 7 ';' b = 8".toList ∧
      comments t'.source = ["'kgf = 7 ';' b = 8".toList] := by
  have lines :=
    @Recommented.other "a = 2kgf ".toList [" b = 3 ".toList] '\'' "wide".toList
      "kgf = 7 ';' b = 8".toList (by decide) (by decide) (by decide)
      (by decide) (by decide)
  have old : joinSegments "a = 2kgf ".toList
      [" b = 3 ".toList] ++ '\'' :: "wide".toList =
      "a = 2kgf ';' b = 3 'wide".toList := by decide
  have new : joinSegments "a = 2kgf ".toList
      [" b = 3 ".toList] ++ '\'' :: "kgf = 7 ';' b = 8".toList =
      "a = 2kgf ';' b = 3 'kgf = 7 ';' b = 8".toList := by decide
  rw [old, new] at lines
  have other := OtherComments.last (by decide) lines
  have config (source : Text) :
      ((Sheet.new .standard).load source).config = .standard := rfl
  obtain ⟨-, -, -, write, -, -⟩ := comments_irrelevant
    (s := (Sheet.new .standard).load "a = 2kgf ';' b = 3 'wide".toList)
    (t := (Sheet.new .standard).load "a = 2kgf ';' b = 3 'kgf = 7 ';' b = 8".toList)
    ((config _).trans (config _).symm) (by decide) (by decide) other
  have found :
      (((Sheet.new .standard).load
          "a = 2kgf ';' b = 3 'wide".toList).setVariable ['b'] 10).map
        Sheet.source = .ok "a = 2kgf ';' b = 10 'wide".toList := by
    decide +kernel
  have found' :
      (((Sheet.new .standard).load
          "a = 2kgf ';' b = 3 'kgf = 7 ';' b = 8".toList).setVariable
            ['b'] 10).map
        Sheet.source =
        .ok "a = 2kgf ';' b = 10 'kgf = 7 ';' b = 8".toList := by decide +kernel
  rcases write ['b'] 10 with ⟨e, failed, -⟩ | ⟨s', t', wrote, wrote', alike⟩
  · rw [failed] at found
    cases found
  · rw [wrote] at found
    rw [wrote'] at found'
    refine ⟨s', t', wrote, wrote', Except.ok.inj found, Except.ok.inj found',
      ?_⟩
    rw [alike.comments_right]
    decide

end Sheet
end Worksheet

import Worksheet.Proofs.Source.LeftSides
import Worksheet.Proofs.Source.Overwriting
import Worksheet.Proofs.Text.Pieces

/-!
# Sources that differ in their comments

A comment begins with a character of its own and runs to the end of its line.
Behind that character a source may say anything that ends no line and makes no
mark of a quote. Two sources of this kind have tables that agree in all but the
comments, and sources with such tables are of this kind.
-/

namespace Worksheet

open Text

/-! ## Sources -/

/-- A line as it is, or with another text behind the character that begins its
comment. -/
inductive Recommented : Text → Text → Prop where
  | same (line : Text) : Recommented line line
  | other {first : Text} {others : List Text} {opener : Char} {old new : Text}
    (segments : ∀ s ∈ first :: others, Uncommented s)
    (begins : beginsComment opener = true)
    (unmarked : ¬segmentMark <+: opener :: old)
    (unmarked' : ¬segmentMark <+: opener :: new)
    (unbroken : '\n' ∉ new) :
    Recommented (joinSegments first others ++ opener :: old)
      (joinSegments first others ++ opener :: new)

theorem Recommented.unbroken {line line' : Text} (h : Recommented line line')
    (unbroken : '\n' ∉ line) :
    '\n' ∉ line' := by
  cases h with
  | same => exact unbroken
  | other _ _ _ _ unbroken' =>
    rw [List.mem_append, List.mem_cons, not_or, not_or] at unbroken ⊢
    exact ⟨unbroken.1, unbroken.2.1, unbroken'⟩

/-- Sources that differ, line by line, in the texts of comments only. -/
inductive OtherComments : Text → Text → Prop where
  | last {line line' : Text} (unbroken : '\n' ∉ line)
    (lines : Recommented line line') :
    OtherComments line line'
  | feed {line line' s t : Text} (unbroken : '\n' ∉ line)
    (lines : Recommented line line')
    (rest : OtherComments s t) :
    OtherComments (line ++ '\n' :: s) (line' ++ '\n' :: t)

/-! ## Rows -/

theorem feedPieces_feed {line : Text} (unbroken : '\n' ∉ line) (s : Text) :
    feedPieces (line ++ '\n' :: s) = (line ++ ['\n']) :: feedPieces s := by
  induction line with
  | nil => rw [List.nil_append, feedPieces, if_pos rfl, List.nil_append]
  | cons c line ih =>
    rw [List.mem_cons, not_or] at unbroken
    rw [List.cons_append, feedPieces, if_neg (Ne.symm unbroken.1),
      ih unbroken.2, List.cons_append]

theorem rows_feed {line : Text} (unbroken : '\n' ∉ line) (s : Text) :
    rows (line ++ '\n' :: s) = splitEnding (line ++ ['\n']) :: rows s := by
  rw [rows_eq_map_splitEnding, feedPieces_feed unbroken, List.map_cons,
    ← rows_eq_map_splitEnding]

/-- An ending is looked for behind a character that belongs to none. -/
theorem splitEnding_append {c : Char} (feed : c ≠ '\n') (return' : c ≠ '\r')
    (front piece : Text) :
    splitEnding (front ++ c :: piece) =
      ⟨front ++ c :: (splitEnding piece).content,
        (splitEnding piece).ending⟩ := by
  induction front with
  | nil =>
    rw [List.nil_append, splitEnding_cons (by simp [feed]) (by simp [return'])]
    rfl
  | cons d front ih =>
    have long : front ++ c :: piece ≠ [] := by simp
    have apart : front ++ c :: piece ≠ ['\n'] := by
      intro eq
      cases front with
      | nil => exact feed (List.cons.inj eq).1
      | cons e front => simp at eq
    rw [List.cons_append, splitEnding_cons (by simp [long]) (by simp [apart]),
      ih]
    rfl

/-- Telling the ending of a piece apart loses nothing. -/
theorem text_splitEnding (piece : Text) : (splitEnding piece).text = piece := by
  unfold splitEnding
  split
  · next content cut => exact (before?_eq_some_iff.1 cut).symm
  · split
    · next content cut => exact (before?_eq_some_iff.1 cut).symm
    · exact List.append_nil piece

theorem ending_splitEnding_feed (line : Text) :
    (splitEnding (line ++ ['\n'])).ending ≠ .open := by
  have cut : before? ['\n'] (line ++ ['\n']) = some line :=
    before?_eq_some_iff.2 rfl
  unfold splitEnding
  cases before? ['\r', '\n'] (line ++ ['\n']) with
  | some content => simp
  | none => simp [cut]

/-! ## Lines -/

namespace Line

variable {v : Vocabulary}

/-- A line is read as it is cut. -/
theorem read_of_cuts {k : Cut} {s : Text} (cuts : k.Cuts s) :
    (read v s).clauses = clausesOf v (k.first :: k.others) ∧
      (read v s).comment = k.comment := by
  rw [read, Cut.ofText_eq_iff.2 cuts]
  exact ⟨rfl, rfl⟩

theorem code_of_clauses {l l' : Line} (same : l.clauses = l'.clauses) :
    l.code = l'.code := by
  obtain ⟨first, others, comment⟩ := l
  obtain ⟨first', others', comment'⟩ := l'
  obtain ⟨rfl, rfl⟩ := List.cons.inj same
  rfl

theorem statements_of_clauses {l l' : Line} (same : l.clauses = l'.clauses) :
    l.statements = l'.statements :=
  congrArg (List.map Clause.statement) same

theorem equation?_of_clauses {l l' : Line} (same : l.clauses = l'.clauses) :
    l.equation? = l'.equation? := by
  obtain ⟨first, others, comment⟩ := l
  obtain ⟨first', others', comment'⟩ := l'
  obtain ⟨rfl, rfl⟩ := List.cons.inj same
  rfl

end Line

/-! ## Rows of tables -/

/-- Rows of tables that say the same: comments may differ behind their first
character, and endings where there is a comment, as a carriage return at its end
counts for the ending. -/
structure SameCode (r r' : LineRow) : Prop where
  clauses : r.line.clauses = r'.line.clauses
  opener : r.line.comment.head? = r'.line.comment.head?
  ending : r.line.comment = [] → r.ending = r'.ending
  closed : r.ending = .open ↔ r'.ending = .open

theorem SameCode.refl (r : LineRow) : SameCode r r :=
  ⟨rfl, rfl, fun _ => rfl, Iff.rfl⟩

/-- Rows that say the same have a comment both or neither. -/
theorem SameCode.comment_eq_nil_iff {r r' : LineRow} (h : SameCode r r') :
    r.line.comment = [] ↔ r'.line.comment = [] := by
  rw [← List.head?_eq_none_iff, h.opener, List.head?_eq_none_iff]

namespace LineTable

variable {v : Vocabulary}

theorem readRow_commented {first : Text} {others : List Text} {opener : Char}
    {text : Text} (segments : ∀ s ∈ first :: others, Uncommented s)
    (begins : beginsComment opener = true)
    (unmarked : ¬segmentMark <+: opener :: text) (e : Ending) :
    let r := readRow v ⟨joinSegments first others ++ opener :: text, e⟩
    r.line.clauses = Line.clausesOf v (first :: others) ∧
      r.line.comment = opener :: text :=
  Line.read_of_cuts (k := ⟨first, others, opener :: text⟩)
    ⟨rfl, segments, .inr ⟨begins, unmarked⟩⟩

/-- Comments in the place of each other leave the rest of their rows alike. -/
theorem sameCode_commented {first : Text} {others : List Text} {opener : Char}
    {old new : Text} (segments : ∀ s ∈ first :: others, Uncommented s)
    (begins : beginsComment opener = true)
    (unmarked : ¬segmentMark <+: opener :: old)
    (unmarked' : ¬segmentMark <+: opener :: new) {e e' : Ending}
    (closed : e = .open ↔ e' = .open) :
    SameCode (readRow v ⟨joinSegments first others ++ opener :: old, e⟩)
      (readRow v ⟨joinSegments first others ++ opener :: new, e'⟩) := by
  obtain ⟨clauses, comment⟩ :=
    readRow_commented (v := v) segments begins unmarked e
  obtain ⟨clauses', comment'⟩ :=
    readRow_commented (v := v) segments begins unmarked' e'
  refine ⟨clauses.trans clauses'.symm, ?_, ?_, closed⟩
  · rw [comment, comment']
    rfl
  · intro none
    rw [comment] at none
    cases none

theorem ne_of_beginsComment {c : Char} (begins : beginsComment c = true) :
    c ≠ '\n' ∧ c ≠ '\r' := by
  constructor <;> rintro rfl <;> exact absurd begins (by decide)

/-- Less of a text makes no mark either. -/
theorem not_mark_of_prefix {s t : Text} (h : ¬segmentMark <+: t)
    (part : s <+: t) : ¬segmentMark <+: s :=
  fun mark => h (mark.trans part)

theorem content_prefix (piece : Text) : (splitEnding piece).content <+: piece :=
  ⟨(splitEnding piece).ending.text, text_splitEnding piece⟩

/-- Lines that differ in their comments have rows that differ in them, before a
line feed. -/
theorem sameCode_feed {line line' : Text} (h : Recommented line line') :
    SameCode (readRow v (splitEnding (line ++ ['\n'])))
      (readRow v (splitEnding (line' ++ ['\n']))) := by
  cases h with
  | same => exact .refl _
  | @other first others opener old new segments begins unmarked unmarked'
      unbroken =>
    obtain ⟨feed, return'⟩ := ne_of_beginsComment begins
    have unmarkedFeed {text : Text} (h : ¬segmentMark <+: opener :: text) :
        ¬segmentMark <+: opener :: (splitEnding (text ++ ['\n'])).content :=
      not_mark_of_prefix (UnitAlias.not_mark_append_ending h .feed)
        (List.cons_prefix_cons.2 ⟨rfl, content_prefix (text ++ ['\n'])⟩)
    rw [List.append_assoc, List.append_assoc, List.cons_append,
      List.cons_append, splitEnding_append feed return',
      splitEnding_append feed return']
    refine sameCode_commented segments begins (unmarkedFeed unmarked)
      (unmarkedFeed unmarked') ?_
    exact iff_of_false (ending_splitEnding_feed old)
      (ending_splitEnding_feed new)

/-- Lines that differ in their comments have tables that differ in them, at
the end of a source. -/
theorem sameCode_last {line line' : Text} (unbroken : '\n' ∉ line)
    (h : Recommented line line') :
    List.Forall₂ SameCode (read v line) (read v line') := by
  have unbroken' := h.unbroken unbroken
  cases h with
  | same => exact List.forall₂_same.2 fun r _ => .refl r
  | @other first others opener old new segments begins unmarked unmarked' _ =>
    have one {text : Text}
        (unbroken : '\n' ∉ joinSegments first others ++ opener :: text) :
        read v (joinSegments first others ++ opener :: text) =
          [readRow v ⟨joinSegments first others ++ opener :: text, .open⟩] := by
      rw [read, rows_of_open unbroken (by simp)]
      rfl
    rw [one unbroken, one unbroken']
    exact .cons (sameCode_commented segments begins unmarked unmarked' Iff.rfl)
      .nil

/-- Sources that differ in their comments only have tables that agree in all
else. -/
theorem forall₂_sameCode (v : Vocabulary) {s t : Text} (h : OtherComments s t) :
    List.Forall₂ SameCode (read v s) (read v t) := by
  induction h with
  | last unbroken lines => exact sameCode_last unbroken lines
  | feed unbroken lines _ ih =>
    rw [read, read, rows_feed unbroken, rows_feed (lines.unbroken unbroken),
      List.map_cons, List.map_cons]
    exact .cons (sameCode_feed lines) ih

end LineTable

/-! ## Back to sources -/

namespace Text.Row

/-- The content of a row with what stands between it and the line feed. -/
def line (r : Row) : Text :=
  r.content ++ if r.ending = .returnFeed then ['\r'] else []

theorem text_of_open {r : Row} (h : r.ending = .open) : r.text = r.line := by
  rw [Row.text, line, h, if_neg (by simp)]
  rfl

theorem text_of_closed {r : Row} (h : r.ending ≠ .open) :
    r.text = r.line ++ ['\n'] := by
  obtain ⟨content, ending⟩ := r
  cases ending with
  | feed => simp [Row.text, line, Ending.text]
  | returnFeed => simp [Row.text, line, Ending.text]
  | «open» => exact absurd rfl h

theorem Sound.unbroken {r : Row} (h : r.Sound) : '\n' ∉ r.line := by
  rw [line, List.mem_append, not_or]
  refine ⟨h.feed, ?_⟩
  split <;> simp

end Text.Row

/-- A row that is cut at its comment, whether or not a carriage return goes with
the comment. -/
theorem line_of_cuts {r : Row} {first : Text} {others : List Text}
    {opener : Char} {text : Text}
    (cuts : Cut.Cuts ⟨first, others, opener :: text⟩ r.content) :
    ∃ text', r.line = joinSegments first others ++ opener :: text' ∧
      ¬segmentMark <+: opener :: text' := by
  have content := cuts.text
  have unmarked := (cuts.comment.resolve_left (List.cons_ne_nil _ _)).2
  rw [Cut.text] at content
  refine ⟨text ++ if r.ending = .returnFeed then ['\r'] else [], ?_, ?_⟩
  · rw [Row.line, ← content, List.append_assoc, List.cons_append]
  · apply LineTable.not_mark_of_prefix
      (UnitAlias.not_mark_append_ending unmarked .returnFeed)
    refine (List.prefix_append_right_inj (opener :: text)).2 ?_
    split
    · exact ⟨['\n'], rfl⟩
    · exact List.nil_prefix

/-- Rows that say the same and have no comment are the same. -/
theorem SameCode.eq_of_nil {v : Vocabulary} {r r' : Row}
    (h : SameCode (LineTable.readRow v r) (LineTable.readRow v r'))
    (none : (Line.read v r.content).comment = []) : r = r' := by
  have none' : (Line.read v r'.content).comment = [] :=
    h.comment_eq_nil_iff.1 none
  have code : (Line.read v r.content).code = (Line.read v r'.content).code :=
    Line.code_of_clauses h.clauses
  have content : r.content = r'.content := by
    rw [← Line.text_read v r.content, ← Line.text_read v r'.content, Line.text,
      Line.text, none, none', code]
  have ending : r.ending = r'.ending := h.ending none
  obtain ⟨content, ending⟩ := r
  cases content
  cases ending
  rfl

/-- Rows that say the same differ in their comments only. -/
theorem SameCode.recommented {v : Vocabulary} {r r' : Row} (sound : r'.Sound)
    (h : SameCode (LineTable.readRow v r) (LineTable.readRow v r')) :
    Recommented r.line r'.line := by
  have cuts := Line.cuts_read v r.content
  have cuts' := Line.cuts_read v r'.content
  cases comment : (Line.read v r.content).comment with
  | nil =>
    rw [h.eq_of_nil comment]
    exact .same r'.line
  | cons c x =>
    obtain ⟨clauses, opener, -, -⟩ := h
    dsimp only [LineTable.readRow] at clauses opener
    obtain ⟨first, others⟩ := List.cons.inj clauses
    rw [comment] at cuts opener
    obtain ⟨y, comment'⟩ := List.head?_eq_some_iff.1 opener.symm
    rw [comment', ← first, ← others] at cuts'
    obtain ⟨old, line, unmarked⟩ := line_of_cuts cuts
    obtain ⟨new, line', unmarked'⟩ := line_of_cuts cuts'
    have begins := (cuts.comment.resolve_left (List.cons_ne_nil c x)).1
    have unbroken : '\n' ∉ new := by
      intro feed
      apply sound.unbroken
      rw [line']
      exact List.mem_append_right _ (List.mem_cons_of_mem c feed)
    rw [line, line']
    exact .other cuts.segments begins unmarked unmarked' unbroken

/-- Sources whose tables agree in all but their comments differ in these
only. -/
theorem otherComments_of_forall₂ {v : Vocabulary} {rs rs' : List Row}
    (are : AreRows rs) (are' : AreRows rs')
    (h : List.Forall₂ SameCode (rs.map (LineTable.readRow v))
      (rs'.map (LineTable.readRow v))) :
    OtherComments (rs.flatMap Row.text) (rs'.flatMap Row.text) := by
  induction are generalizing rs' with
  | nil =>
    obtain rfl : rs' = [] := by simpa using h
    exact .last (by simp) (.same [])
  | @last r sound ending ne =>
    -- An open row is the last one, and its partner is open too.
    cases are' with
    | nil => cases h
    | @last r' sound' ending' ne' =>
      obtain ⟨row, -⟩ := List.forall₂_cons.1 h
      rw [List.flatMap_singleton, List.flatMap_singleton,
        Row.text_of_open ending, Row.text_of_open ending']
      exact .last sound.unbroken (row.recommented sound')
    | cons sound' ending' rest' =>
      obtain ⟨row, -⟩ := List.forall₂_cons.1 h
      exact absurd (row.closed.1 ending) ending'
  | @cons r rs sound ending rest ih =>
    cases are' with
    | nil => cases h
    | last sound' ending' ne' =>
      obtain ⟨row, -⟩ := List.forall₂_cons.1 h
      exact absurd (row.closed.2 ending') ending
    | @cons r' rs' sound' ending' rest' =>
      obtain ⟨row, later⟩ := List.forall₂_cons.1 h
      rw [List.flatMap_cons, List.flatMap_cons, Row.text_of_closed ending,
        Row.text_of_closed ending', List.append_assoc, List.append_assoc]
      exact .feed sound.unbroken (row.recommented sound') (ih rest' later)

/-- Sources differ in their comments only just when their tables agree in all
else. -/
theorem otherComments_iff (v : Vocabulary) {s t : Text} :
    OtherComments s t ↔
      List.Forall₂ SameCode (LineTable.read v s) (LineTable.read v t) := by
  constructor
  · exact LineTable.forall₂_sameCode v
  · intro h
    have both := otherComments_of_forall₂ (areRows_rows s) (areRows_rows t) h
    rwa [flatMap_text_rows, flatMap_text_rows] at both

end Worksheet

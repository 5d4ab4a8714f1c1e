import Mathlib.Data.List.Basic
import Worksheet.Proofs.Decimal.Value
import Worksheet.Proofs.Source.Grammar

/-!
# Places of literals

A line is its segments joined by marks, and behind them its comment. The right
side of a segment holds a literal between the braces of an input or as the
number at its front, and the place that is kept for the literal is where its
bytes stand in the line. It lies inside the segment, so that the places in a
line follow one another.
-/

namespace Worksheet

open Text Decimal

theorem Slot.size_text (s : Slot) :
    s.text.size = s.before.size + (s.literal.size + s.after.size) := by
  rw [Slot.text, size_append, size_append]

/-! ## Literals of segments -/

namespace Vocabulary

variable {v : Vocabulary}

/-- How a right side holds a literal: between the braces of an input, without
the blanks at either end there, or as the longest numeral in front of a unit or
of nothing. -/
inductive Holds (v : Vocabulary) : (body : Text) → (slot : Slot) → Prop
  | braced {gap inside gap' unit : Text} (blank : isAllBlank gap = true)
    (closed : '}' ∉ inside)
    (blank' : isAllBlank gap' = true) (optional : v.OptionalUnit unit) :
    v.Holds (bracedBody gap inside (gap' ++ unit))
      ⟨'?' :: (gap ++ '{' :: leading inside), trim inside,
        trailing inside ++ '}' :: (gap' ++ unit)⟩
  | bare {n : Numeral} {gap unit : Text}
    (leads : n.Leads Char.isDigit (n.text ++ (gap ++ unit)))
    (blank : isAllBlank gap = true) (optional : v.OptionalUnit unit) :
    v.Holds (n.text ++ (gap ++ unit)) ⟨[], n.text, gap ++ unit⟩

/-- The literal of a segment that names something: what the right side between
its margins holds. -/
inductive HasLiteral (v : Vocabulary) : (segment : Text) → (slot : Slot) → Prop
  | mk {name front right : Text} {inner : Slot}
    (names : Names (front ++ right) name right)
    (holds : v.Holds (trim right) inner) :
    v.HasLiteral (front ++ right)
      (inner.within (front ++ leading right) (trailing right))

theorem holds_iff {body : Text} {slot : Slot} (trimmed : Trimmed body) :
    v.Holds body slot ↔ ∃ unit, HoldsSlot v body slot unit := by
  constructor
  · intro holds
    cases holds with
    | @braced gap inside gap' unit blank closed blank' optional =>
      refine ⟨unit, .braced blank closed rfl rfl ?_⟩
      rw [optional.trim_gap blank']
      exact wholeUnit?_optional.2 ⟨rfl, optional⟩
    | @bare n gap unit leads blank optional =>
      have read :=
        (Numeral.readWith?_eq_some_iff marksApart_isDigit).2 ⟨leads, rfl⟩
      refine ⟨unit, .bare read rfl ?_⟩
      rw [trimStart_append blank optional.trimmed.head]
      exact wholeUnit?_optional.2 ⟨rfl, optional⟩
  · rintro ⟨unit, holds⟩
    cases holds with
    | @braced gap inside rest _ blank closed hbody hslot hunit =>
      obtain ⟨rfl, optional⟩ := wholeUnit?_optional.1 hunit
      rw [hbody] at trimmed
      rw [hbody, hslot, bracedSlot, ← leading_append_trim_of_bracedBody trimmed]
      exact .braced blank closed (isAllBlank_leading rest) optional
    | @bare n rest _ read hslot hunit =>
      obtain ⟨rfl, optional⟩ := wholeUnit?_optional.1 hunit
      obtain ⟨leads, rfl⟩ :=
        (Numeral.readWith?_eq_some_iff marksApart_isDigit).1 read
      have parts := leading_append_trimStart rest
      rw [hslot]
      rw [← parts] at leads ⊢
      exact .bare leads (isAllBlank_leading rest) optional

theorem slot?_of_framed {joined : Bool} {p : Parts} {unit : Text}
    (framed : p.Framed) (holds : HoldsSlot v p.slot.text p.slot unit) :
    (v.classify joined p.text).slot? = some p.whole := by
  cases holds with
  | braced blank closed hbody hslot hunit =>
    rw [classify_braced joined framed blank closed hbody hslot hunit]
    rfl
  | bare read hslot hunit =>
    rw [classify_bare joined framed read hslot hunit]
    rfl

/-- A statement keeps a slot just when its segment has a literal, and the slot
is where the literal stands. -/
theorem slot?_classify_iff {joined : Bool} {segment : Text} {slot : Slot} :
    (v.classify joined segment).slot? = some slot ↔
      v.HasLiteral segment slot := by
  constructor
  · intro kept
    obtain ⟨p, unit, framed, holds, rfl, rfl⟩ := exists_parts kept
    have join : p.text = p.left ++ [p.sign] ++ p.right := by simp [Parts.text]
    have names : Names p.text (trim p.left) p.right :=
      names_iff.2 ⟨p.left, p.sign, framed.only, rfl, framed.name⟩
    have inner : v.Holds (trim p.right) p.slot := by
      rw [framed.trim_right]
      exact (holds_iff framed.trimmed).2 ⟨unit, holds⟩
    rw [join] at names ⊢
    rw [← place_eq framed]
    exact .mk names inner
  · rintro @⟨name, front, right, inner, names, holds⟩
    obtain ⟨unit, holds⟩ := (holds_iff (trimmed_trim right)).1 holds
    obtain ⟨left, sign, single, rfl, hname⟩ := names_iff.1 names
    obtain ⟨framed, text⟩ := framed_of_single single hname holds
    have cut := (assignments_eq_singleton_iff.1 single).1.text
    have sign_end : left ++ sign :: right = left ++ [sign] ++ right := by simp
    obtain rfl := List.append_cancel_right (cut.trans sign_end)
    rw [← text]
    exact slot?_of_framed framed (by rwa [holds.text])

end Vocabulary

/-! ## Places in a line -/

/-- What is kept of a segment that begins `start` bytes into a line: the
segment stands there, its statement says what the grammar finds in it, and its
span is where its literal stands, if it has one. The value is the number that
the literal is, and nothing when it is none. -/
structure SegmentExact (v : Vocabulary) (line : Text) (joined : Bool)
    (segment : Text) (start : Nat) (statement : Statement)
    (span : Option (Nat × Nat)) : Prop where
  stands : StandsAt line segment start (start + segment.size)
  grammar : v.Grammatical joined segment statement
  unspanned : span = none ↔ ∀ slot, ¬v.HasLiteral segment slot
  valueless : span = none → statement.value? = none
  spanned : ∀ a b, span = some (a, b) → start ≤ a ∧ b ≤ start + segment.size ∧
    ∃ slot, v.HasLiteral segment slot ∧ a = start + slot.before.size ∧
      b = a + slot.literal.size ∧ StandsAt line slot.literal a b ∧
      ∀ x, statement.value? = some x ↔
        ∃ n : Numeral, n.Written Char.isDigit ∧
          n.text = slot.literal ∧ n.value = x

namespace Line

/-- The segments of a line. -/
def segments (l : Line) : List Text := l.clauses.map Clause.text

/-- Where a segment begins: behind the segments before it and their marks. -/
def start (l : Line) (j : Nat) : Nat := (lead (l.clauses.take j)).size

/-- What a line is read as: its segments joined by marks, and the comment behind
them. -/
structure Exact (v : Vocabulary) (s : Text) (l : Line) : Prop where
  text : s = segmentMark.intercalate l.segments ++ l.comment
  comment : l.comment = [] ∨ ∃ c rest, l.comment = c :: rest ∧
    (c = '#' ∨ c = '\'' ∨ c = '"')
  codeEnd : StandsAt s l.comment l.codeEnd s.size
  free : ∀ segment ∈ l.segments, '#' ∉ segment ∧ '\'' ∉ segment ∧ '"' ∉ segment
  hasMark : l.hasMark = true ↔ 2 ≤ l.segments.length
  hasComment : l.hasComment = true ↔ l.comment ≠ []
  statements : l.statements.length = l.segments.length
  spans : l.spans.length = l.segments.length
  segment : ∀ j segment, l.segments[j]? = some segment → ∃ statement span,
    l.statements[j]? = some statement ∧ l.spans[j]? = some span ∧
    SegmentExact v s (decide (0 < j)) segment (l.start j) statement span
  increasing : l.spans.Pairwise fun span span' => ∀ p ∈ span,
    ∀ q ∈ span', p.2 < q.1

variable {v : Vocabulary} {s : Text}

theorem code_eq (l : Line) : l.code = segmentMark.intercalate l.segments := by
  obtain ⟨first, others, comment⟩ := l
  rw [code, segments, clauses, List.map_cons]
  generalize first.text = t
  generalize others.map Clause.text = ts
  induction ts generalizing t with
  | nil => simp [joinSegments, List.intercalate_singleton]
  | cons t' ts ih =>
    rw [List.intercalate_cons_cons, ← ih t', joinSegments, joinSegments,
      List.flatMap_cons]
    simp

/-- A line that was read, around one of its segments. -/
theorem text_around {before after : List Clause} {clause : Clause}
    (h : (read v s).clauses = before ++ clause :: after) :
    s = lead before ++ (clause.text ++ (rear after ++ (read v s).comment)) := by
  conv => lhs; rw [← text_read v s, text, code_around h]
  simp

/-- What is kept of one of the segments. -/
theorem segmentExact_of_around {before after : List Clause} {clause : Clause}
    (h : (read v s).clauses = before ++ clause :: after) :
    SegmentExact v s (!before.isEmpty) clause.text
      (lead before).size clause.statement
      (clause.statement.slot?.map fun slot =>
        ((lead before).size + slot.before.size,
        (lead before).size + slot.before.size + slot.literal.size)) := by
  obtain ⟨-, classified, -⟩ := clauses_around h
  have line := text_around h
  have literal (slot : Slot) :
      clause.statement.slot? = some slot ↔ v.HasLiteral clause.text slot := by
    rw [classified]
    exact Vocabulary.slot?_classify_iff
  refine ⟨?_, ?_, ?_, ?_, ?_⟩
  · rw [line]
    exact standsAt_append _ _ _
  · rw [classified]
    exact v.classify_grammatical _ _
  · rw [Option.map_eq_none_iff, Option.eq_none_iff_forall_ne_some]
    simp only [ne_eq, literal]
  · intro unspanned
    rw [Statement.value?, Option.map_eq_none_iff.1 unspanned, Option.bind_none]
  · intro a b spanned
    obtain ⟨slot, kept, place⟩ := Option.map_eq_some_iff.1 spanned
    obtain ⟨rfl, rfl⟩ := Prod.mk.inj place
    have mem : clause ∈ (read v s).clauses := by simp [h]
    have text := slot_text_of_mem mem kept
    have size := slot.size_text
    rw [text] at size
    have stands : s = lead before ++ slot.before ++
        (slot.literal ++ (slot.after ++ rear after ++ (read v s).comment)) := by
      conv => lhs; rw [line, ← text, Slot.text]
      simp
    refine ⟨by omega, by omega, slot, (literal slot).1 kept, rfl, rfl, ?_,
      fun x => ?_⟩
    · rw [stands, ← size_append]
      exact standsAt_append _ _ _
    · rw [Statement.value?, kept, Option.bind_some, value?_eq_some_iff]

/-! ## Order -/

theorem le_of_mem_spansFrom {start : Nat} {cs : List Clause} :
    ∀ span ∈ spansFrom start cs, ∀ p ∈ span, start ≤ p.1 := by
  induction cs generalizing start with
  | nil => simp [spansFrom]
  | cons c cs ih =>
    intro span mem p hp
    rcases List.mem_cons.1 mem with rfl | later
    · obtain ⟨slot, -, rfl⟩ := Option.map_eq_some_iff.1 hp
      exact Nat.le_add_right _ _
    · have behind := ih span later p hp
      omega

/-- The places in clauses whose slots stand in them follow one another. -/
theorem pairwise_spansFrom {start : Nat} {cs : List Clause}
    (slots : ∀ c ∈ cs, ∀ slot, c.statement.slot? = some slot →
      slot.text = c.text) :
    (spansFrom start cs).Pairwise fun span span' => ∀ p ∈ span, ∀ q ∈ span',
      p.2 < q.1 := by
  induction cs generalizing start with
  | nil => exact .nil
  | cons c cs ih =>
    refine .cons ?_ (ih fun c' hc' => slots c' (List.mem_cons_of_mem c hc'))
    intro span' later p hp q hq
    obtain ⟨slot, kept, rfl⟩ := Option.map_eq_some_iff.1 hp
    have text := slots c List.mem_cons_self slot kept
    have behind := le_of_mem_spansFrom span' later q hq
    have mark : segmentMark.size = 3 := rfl
    have size := slot.size_text
    rw [text] at size
    simp only
    omega

/-! ## Reading -/

theorem beginsComment_iff {c : Char} :
    beginsComment c = true ↔ c = '#' ∨ c = '\'' ∨ c = '"' := by
  simp only [beginsComment, Bool.or_eq_true, beq_iff_eq, or_assoc]

/-- The clauses of a line around the one at a place. -/
theorem exists_around {l : Line} {j : Nat} {segment : Text}
    (h : l.segments[j]? = some segment) :
    ∃ before clause after, l.clauses = before ++ clause :: after ∧
      clause.text = segment ∧
      before.length = j ∧ l.start j = (lead before).size := by
  rw [segments, List.getElem?_map] at h
  obtain ⟨clause, found, htext⟩ := Option.map_eq_some_iff.1 h
  obtain ⟨bound, rfl⟩ := List.getElem?_eq_some_iff.1 found
  refine ⟨l.clauses.take j, l.clauses[j], l.clauses.drop (j + 1), ?_, htext,
    List.length_take_of_le bound.le, rfl⟩
  rw [← List.drop_eq_getElem_cons bound, List.take_append_drop]

/-- A line is its segments joined by marks, and a comment, and the place of
every literal is where the literal stands. -/
theorem read_exact (v : Vocabulary) (s : Text) : Exact v s (read v s) where
  text := by
    rw [← code_eq]
    exact (text_read v s).symm
  comment := by
    refine (cuts_read v s).comment.imp_right fun ⟨opens, _⟩ => ?_
    obtain ⟨c, head, begins⟩ := (Option.any_eq_true _ _).1 opens
    obtain ⟨rest, comment⟩ := List.head?_eq_some_iff.1 head
    exact ⟨c, rest, comment, beginsComment_iff.1 begins⟩
  codeEnd := by
    have stands := standsAt_append (read v s).code (read v s).comment []
    have join : (read v s).code ++ (read v s).comment = s := text_read v s
    rwa [List.append_nil, ← size_append, join] at stands
  free := by
    intro segment mem
    obtain ⟨clause, hc, rfl⟩ := List.mem_map.1 mem
    have free (c : Char) (begins : beginsComment c = true) :
        c ∉ clause.text := by
      intro mem
      rw [uncommented_read hc c mem] at begins
      cases begins
    exact ⟨free '#' rfl, free '\'' rfl, free '"' rfl⟩
  hasMark := by
    rw [hasMark, segments, clauses, List.length_map, List.length_cons]
    cases (read v s).others <;> simp
  hasComment := by
    simp [hasComment]
  statements := by simp [statements, segments]
  spans := by simp [spans, segments, length_spansFrom]
  segment := by
    intro j segment at_j
    obtain ⟨before, clause, after, around, rfl, rfl, start⟩ :=
      exists_around at_j
    have joined : (!before.isEmpty) = decide (0 < before.length) := by
      cases before <;> rfl
    have kept := segmentExact_of_around around
    rw [joined, ← start] at kept
    refine ⟨clause.statement, _, ?_, ?_, kept⟩
    · simp [statements, around]
    · have length := length_spansFrom 0 before
      rw [spans, around, spansFrom_append, List.getElem?_append_right length.le,
        length, start]
      simp [spansFrom]
  increasing :=
    pairwise_spansFrom fun c mem slot kept => slot_text_of_mem mem kept

/-- Places count bytes, also behind a Greek name and a full-width sign. -/
example : (read .builtIn "ρ＝?{ 5 }';'h = 2 # x".toList).spans =
    [some (8, 9), some (18, 19)] := by
  decide +kernel

end Line
end Worksheet

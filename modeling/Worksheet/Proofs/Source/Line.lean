import Mathlib.Data.List.Basic
import Worksheet.Proofs.Source.Refill
import Worksheet.Source.LineTable

/-!
# Lines with another literal

Cutting a line at its marks and its comment is undone by joining the parts, and
joining by cutting. A line with another literal in a slot is therefore cut in
the same places, so that reading it again changes one statement and moves the
places of the literals behind it.
-/

namespace Worksheet

open Text

/-! ## Cuts -/

/-- No character of the text begins a comment. -/
def Uncommented (s : Text) : Prop := ∀ c ∈ s, beginsComment c = false

-- The instance that is found for a bound on characters tries them all.
instance (s : Text) : Decidable (Uncommented s) :=
  List.decidableBAll (beginsComment · = false) s

theorem Mild.uncommented {s : Text} (h : Mild s) : Uncommented s := by
  intro c hc
  exact beginsComment_of_isMild (h.chars c hc)

namespace Cut

/-- The parts are those that cutting a line can find. -/
structure WellFormed (k : Cut) : Prop where
  first : Uncommented k.first
  others : ∀ s ∈ k.others, Uncommented s
  comment : ofText k.comment = ⟨[], [], k.comment⟩

theorem ofText_cons {c : Char} (h : beginsComment c = false) (s : Text) :
    ofText (c :: s) =
      ⟨c :: (ofText s).first, (ofText s).others, (ofText s).comment⟩ := by
  rw [ofText.eq_def]
  split
  · next heq => cases heq
  · next heq =>
    obtain ⟨rfl, -⟩ := List.cons.inj heq
    cases h
  · next heq =>
    obtain ⟨rfl, rfl⟩ := List.cons.inj heq
    rw [if_neg (by simp [h])]

theorem ofText_append {front : Text} (h : Uncommented front) (s : Text) :
    ofText (front ++ s) =
      ⟨front ++ (ofText s).first, (ofText s).others, (ofText s).comment⟩ := by
  induction front with
  | nil => rfl
  | cons c front ih =>
    rw [List.cons_append, ofText_cons (h c List.mem_cons_self),
      ih fun x hx => h x (List.mem_cons_of_mem c hx)]
    rfl

theorem wellFormed_ofText (s : Text) : (ofText s).WellFormed := by
  fun_induction ofText s with
  | case1 => exact ⟨by simp [Uncommented], by simp, rfl⟩
  | case2 s rest ih =>
    refine ⟨by simp [Uncommented], ?_, ih.comment⟩
    intro t ht
    rcases List.mem_cons.1 ht with rfl | ht
    · exact ih.first
    · exact ih.others t ht
  | case3 c s noMark h =>
    refine ⟨by simp [Uncommented], by simp, ?_⟩
    rw [ofText.eq_def]
    split
    · next heq => cases heq
    · next heq =>
      obtain ⟨rfl, rfl⟩ := List.cons.inj heq
      exact absurd rfl (noMark _ rfl)
    · next heq =>
      obtain ⟨rfl, rfl⟩ := List.cons.inj heq
      rw [if_pos h]
  | case4 c s noMark h rest ih =>
    refine ⟨?_, ih.others, ih.comment⟩
    intro x hx
    rcases List.mem_cons.1 hx with rfl | hx
    · simpa using h
    · exact ih.first x hx

/-- Joining the parts of a line and cutting them gives the parts. -/
theorem ofText_text {k : Cut} (h : k.WellFormed) : ofText k.text = k := by
  obtain ⟨first, others, comment⟩ := k
  obtain ⟨hfirst, hothers, hcomment⟩ := h
  simp only [text, joinSegments] at hfirst hothers hcomment ⊢
  induction others generalizing first with
  | nil =>
    rw [List.flatMap_nil, List.append_nil, ofText_append hfirst, hcomment,
      List.append_nil]
  | cons s others ih =>
    have rest := ih s (hothers s List.mem_cons_self)
      fun t ht => hothers t (List.mem_cons_of_mem s ht)
    have mark (t : Text) : ofText (segmentMark ++ t) =
        ⟨[], (ofText t).first :: (ofText t).others, (ofText t).comment⟩ := rfl
    rw [List.append_assoc, ofText_append hfirst, List.flatMap_cons,
      List.append_assoc, List.append_assoc, mark, ← List.append_assoc, rest,
      List.append_nil]

/-- Where a line is cut: its segments are free of what begins a comment, and the
comment is nothing or begins with something that does and that is no mark. -/
structure Cuts (k : Cut) (s : Text) : Prop where
  text : k.text = s
  segments : ∀ t ∈ k.first :: k.others, Uncommented t
  comment : k.comment = [] ∨ k.comment.head?.any beginsComment = true ∧
    ¬segmentMark <+: k.comment

theorem ofText_eq_self_iff {s : Text} :
    ofText s = ⟨[], [], s⟩ ↔
      s = [] ∨ s.head?.any beginsComment = true ∧ ¬segmentMark <+: s := by
  fun_cases ofText s with
  | case1 => simp
  | case2 s rest => simp [segmentMark]
  | case3 c s noMark comment =>
    have apart : ¬segmentMark <+: c :: s := by
      rintro ⟨t, eq⟩
      obtain ⟨rfl, rfl⟩ := List.cons.inj eq
      exact noMark t rfl rfl
    simp [comment, apart]
  | case4 c s noMark code rest => simp [code]

/-- A line is cut in one way. -/
theorem ofText_eq_iff {s : Text} {k : Cut} : ofText s = k ↔ k.Cuts s := by
  constructor
  · rintro rfl
    have cut := wellFormed_ofText s
    refine ⟨text_ofText s, ?_, ofText_eq_self_iff.1 cut.comment⟩
    intro t ht
    rcases List.mem_cons.1 ht with rfl | ht
    · exact cut.first
    · exact cut.others t ht
  · rintro ⟨rfl, segments, comment⟩
    refine ofText_text ⟨segments _ List.mem_cons_self, ?_,
      ofText_eq_self_iff.2 comment⟩
    intro t ht
    exact segments t (List.mem_cons_of_mem _ ht)

end Cut

/-! ## Clauses -/

theorem Clause.fill?_eq_some {c c' : Clause} {name literal : Text}
    (h : c.fill? name literal = some c') :
    c.statement.name? = some name ∧
      ∃ slot, c.statement.slot? = some slot ∧
        c' = ⟨slot.fill literal, c.statement⟩ := by
  unfold Clause.fill? at h
  split at h
  · next declares =>
    simp only [Statement.declares, Bool.and_eq_true, beq_iff_eq] at declares
    obtain ⟨slot, hslot, rfl⟩ := Option.map_eq_some_iff.1 h
    exact ⟨declares.2, slot, hslot, rfl⟩
  · cases h

theorem Clause.fill?_eq_none {c : Clause} {name literal : Text} :
    c.fill? name literal = none ↔ c.statement.declares name = false := by
  unfold Clause.fill?
  split
  · next declares =>
    simp only [Statement.declares, Bool.and_eq_true] at declares
    obtain ⟨slot, hslot⟩ := Option.isSome_iff_exists.1 declares.1
    simp [Statement.declares, hslot, declares.2]
  · next h => simpa using h

namespace Line

/-- The clauses of segments in order. -/
def clausesOf (v : Vocabulary) : List Text → List Clause
  | [] => []
  | s :: ss => ⟨s, v.classify false s⟩ :: ss.map fun t => ⟨t, v.classify true t⟩

theorem clausesOf_append_cons (v : Vocabulary) (before : List Text) (s : Text)
    (after : List Text) :
    clausesOf v (before ++ s :: after) = clausesOf v before ++
      ⟨s, v.classify (!before.isEmpty) s⟩ :: after.map fun t =>
        ⟨t, v.classify true t⟩ := by
  cases before with
  | nil => rfl
  | cons b before => simp [clausesOf]

theorem length_clausesOf (v : Vocabulary) (ss : List Text) :
    (clausesOf v ss).length = ss.length := by
  cases ss <;> simp [clausesOf]

variable {v : Vocabulary}

theorem clauses_read (s : Text) :
    (read v s).clauses = clausesOf v ((read v s).clauses.map Clause.text) := by
  simp [read, clauses, clausesOf, List.map_map, Function.comp_def]

/-- The cut of a line by its clauses and its comment. -/
theorem cuts_read (v : Vocabulary) (s : Text) :
    Cut.Cuts ⟨(read v s).first.text, (read v s).others.map Clause.text,
      (read v s).comment⟩ s := by
  have cuts := Cut.ofText_eq_iff.1 (rfl : Cut.ofText s = _)
  simpa [read, Function.comp_def] using cuts

theorem uncommented_read {s : Text} {c : Clause} (h : c ∈ (read v s).clauses) :
    Uncommented c.text := by
  have cut := Cut.wellFormed_ofText s
  simp only [read, clauses, List.mem_cons, List.mem_map] at h
  rcases h with rfl | ⟨t, ht, rfl⟩
  · exact cut.first
  · exact cut.others t ht

/-- Reading the text of a line finds its segments and its comment. -/
theorem read_text {l : Line} (segments : ∀ c ∈ l.clauses, Uncommented c.text)
    (comment : Cut.ofText l.comment = ⟨[], [], l.comment⟩) :
    (read v l.text).clauses = clausesOf v (l.clauses.map Clause.text) ∧
      (read v l.text).comment = l.comment := by
  have cut : Cut.ofText l.text =
      ⟨l.first.text, l.others.map Clause.text, l.comment⟩ := by
    refine Cut.ofText_text
      (k := ⟨l.first.text, l.others.map Clause.text, l.comment⟩)
      ⟨segments _ List.mem_cons_self, ?_, comment⟩
    intro t ht
    obtain ⟨c, hc, rfl⟩ := List.mem_map.1 ht
    exact segments c (List.mem_cons_of_mem _ hc)
  rw [read, cut]
  exact ⟨rfl, rfl⟩

/-! ## Filling -/

theorem replaceFirst?_eq_some {α : Type} {f : α → Option α} {as bs : List α}
    (h : replaceFirst? f as = some bs) :
    ∃ before a b after, as = before ++ a :: after ∧ bs = before ++ b :: after ∧
      f a = some b ∧
      ∀ x ∈ before, f x = none := by
  induction as generalizing bs with
  | nil => cases h
  | cons a as ih =>
    rw [replaceFirst?] at h
    split at h
    · next b hb =>
      cases h
      exact ⟨[], a, b, as, rfl, rfl, hb, by simp⟩
    · next hnone =>
      obtain ⟨bs', hbs, rfl⟩ := Option.map_eq_some_iff.1 h
      obtain ⟨before, a', b, after, rfl, rfl, hb, hbefore⟩ := ih hbs
      refine ⟨a :: before, a', b, after, rfl, rfl, hb, ?_⟩
      intro x hx
      rcases List.mem_cons.1 hx with rfl | hx
      · exact hnone
      · exact hbefore x hx

/-- How a literal comes into a line: the first statement that declares the name
is classified again, and the other statements and the comment stay. -/
structure Filled (v : Vocabulary) (name literal : Text) (l l' : Line)
    (before : List Clause) (clause : Clause) (slot : Slot)
    (after : List Clause) : Prop where
  clauses : l.clauses = before ++ clause :: after
  skipped : ∀ c ∈ before, c.statement.declares name = false
  name_eq : clause.statement.name? = some name
  slot_eq : clause.statement.slot? = some slot
  classified : clause.statement = v.classify (!before.isEmpty) clause.text
  refilled : l'.clauses =
    before ++ ⟨slot.fill literal,
      v.classify (!before.isEmpty) (slot.fill literal)⟩ :: after
  comment : l'.comment = l.comment
  reread : l' = read v l'.text

/-- The clauses of a line that was read, around one of them. -/
theorem clauses_around {s : Text} {before : List Clause} {clause : Clause}
    {after : List Clause} (h : (read v s).clauses = before ++ clause :: after) :
    clausesOf v (before.map Clause.text) = before ∧
      clause.statement = v.classify (!before.isEmpty) clause.text ∧
      (after.map fun c => ⟨c.text, v.classify true c.text⟩) = after := by
  have around := clauses_read (v := v) s
  rw [h, List.map_append, List.map_cons, clausesOf_append_cons,
    List.map_map] at around
  -- Both sides are cut at the same place, because a text makes one clause.
  have lengths :
      before.length = (clausesOf v (before.map Clause.text)).length := by
    rw [length_clausesOf, List.length_map]
  obtain ⟨front, back⟩ := List.append_inj around lengths
  obtain ⟨middle, behind⟩ := List.cons.inj back
  refine ⟨front.symm, ?_, behind.symm⟩
  have statement := congrArg Clause.statement middle
  rwa [List.isEmpty_map] at statement

/-- The slot of a clause that was read stands in the text of the clause. -/
theorem slot_text_of_mem {s : Text} {c : Clause} {slot : Slot}
    (mem : c ∈ (read v s).clauses) (kept : c.statement.slot? = some slot) :
    slot.text = c.text := by
  obtain ⟨before, after, around⟩ := List.append_of_mem mem
  rw [(clauses_around around).2.1] at kept
  exact Vocabulary.slot_text kept

/-- Filling a line that was read. -/
theorem filled_of_fill? {content name literal : Text} {l' : Line}
    (mild : Mild literal)
    (h : (read v content).fill? v name literal = some l') :
    ∃ before clause slot after,
      Filled v name literal (read v content) l' before clause slot after := by
  unfold Line.fill? at h
  split at h
  swap
  · cases h
  next first others replaced =>
  cases h
  obtain ⟨before, clause, filled, after, hclauses, hnew, hfill, hbefore⟩ :=
    replaceFirst?_eq_some replaced
  obtain ⟨front, classified, behind⟩ := clauses_around hclauses
  obtain ⟨name_eq, slot, slot_eq, rfl⟩ := Clause.fill?_eq_some hfill
  -- The new text of the clause begins no comment, and neither do the other
  -- ones.
  have mem : clause ∈ (read v content).clauses := by simp [hclauses]
  have slotText := slot_text_of_mem mem slot_eq
  have segments : ∀ c ∈ first :: others, Uncommented c.text := by
    intro c hc
    rw [hnew] at hc
    have old {c : Clause} (hc : c ∈ before ++ clause :: after) :
        Uncommented c.text :=
      uncommented_read (hclauses ▸ hc)
    rcases List.mem_append.1 hc with hc | hc
    · exact old (by simp [hc])
    rcases List.mem_cons.1 hc with rfl | hc
    · have whole : Uncommented slot.text := slotText ▸ old (by simp)
      intro x hx
      simp only [Slot.fill, List.mem_append] at hx
      rcases hx with hx | hx | hx
      · exact whole x (by simp [Slot.text, hx])
      · exact mild.uncommented x hx
      · exact whole x (by simp [Slot.text, hx])
    · exact old (by simp [hc])
  have comment := (Cut.wellFormed_ofText content).comment
  obtain ⟨clauses', comment'⟩ :=
    read_text (v := v) (l := ⟨first, others, (read v content).comment⟩)
      segments comment
  have skipped : ∀ c ∈ before, c.statement.declares name = false := by
    intro c hc
    exact Clause.fill?_eq_none.1 (hbefore c hc)
  refine ⟨before, clause, slot, after, hclauses, skipped, name_eq, slot_eq,
    classified, ?_, comment', ?_⟩
  · rw [clauses', show Line.clauses ⟨first, others, (read v content).comment⟩ =
      first :: others from
      rfl, hnew, List.map_append, List.map_cons, clausesOf_append_cons, front,
      List.isEmpty_map, List.map_map]
    exact congrArg (fun cs => before ++ _ :: cs) behind
  · rw [text_read]

/-! ## What a filled line keeps -/

/-- The code of a line before a clause that follows these. -/
def lead (before : List Clause) : Text :=
  before.flatMap fun c => c.text ++ segmentMark

/-- The code of a line after a clause that precedes these. -/
def rear (after : List Clause) : Text :=
  after.flatMap fun c => segmentMark ++ c.text

theorem code_around {l : Line} {before : List Clause} {clause : Clause}
    {after : List Clause} (h : l.clauses = before ++ clause :: after) :
    l.code = lead before ++ (clause.text ++ rear after) := by
  obtain ⟨first, others, comment⟩ := l
  simp only [code, clauses] at h ⊢
  induction before generalizing first others with
  | nil =>
    obtain ⟨rfl, rfl⟩ := List.cons.inj h
    simp [joinSegments, lead, rear, List.flatMap_map]
  | cons b before ih =>
    obtain ⟨rfl, hothers⟩ := List.cons.inj h
    cases others with
    | nil => simp at hothers
    | cons second others =>
      have rest := ih second others hothers
      simp only [joinSegments, lead, List.map_cons, List.flatMap_cons] at rest ⊢
      rw [List.append_assoc, rest]
      simp

theorem spansFrom_append (start : Nat) (before cs : List Clause) :
    spansFrom start (before ++ cs) =
      spansFrom start before ++ spansFrom (start + (lead before).size) cs := by
  induction before generalizing start with
  | nil => rfl
  | cons b before ih =>
    simp only [List.cons_append, spansFrom, ih, lead, List.flatMap_cons,
      size_append]
    congr 3
    omega

theorem length_spansFrom (start : Nat) (cs : List Clause) :
    (spansFrom start cs).length = cs.length := by
  induction cs generalizing start with
  | nil => rfl
  | cons c cs ih => simp [spansFrom, ih]

/-- A place moved by a number of bytes. -/
def moved (distance : Nat) (span : Option (Nat × Nat)) : Option (Nat × Nat) :=
  span.map fun (a, b) => (a + distance, b + distance)

theorem spansFrom_add (start distance : Nat) (cs : List Clause) :
    spansFrom (start + distance) cs =
      (spansFrom start cs).map (moved distance) := by
  induction cs generalizing start with
  | nil => rfl
  | cons c cs ih =>
    simp only [spansFrom, List.map_cons, ← ih]
    congr 1
    · cases c.statement.slot? with
      | none => rfl
      | some slot => simp only [moved, Option.map_some]; congr 2 <;> omega
    · congr 1
      omega

namespace Filled

variable {name literal : Text} {l l' : Line} {before : List Clause}
  {clause : Clause} {slot : Slot} {after : List Clause}

/-- The statement that is filled, and the one that it becomes. -/
theorem statements (h : Filled v name literal l l' before clause slot after) :
    l.statements = before.map Clause.statement ++
        clause.statement :: after.map Clause.statement ∧
      l'.statements = before.map Clause.statement ++
        v.classify (!before.isEmpty)
          (slot.fill literal) :: after.map Clause.statement := by
  rw [Line.statements, Line.statements, h.clauses, h.refilled]
  simp

theorem slot_text (h : Filled v name literal l l' before clause slot after) :
    slot.text = clause.text := by
  have slot_eq := h.slot_eq
  rw [h.classified] at slot_eq
  exact Vocabulary.slot_text slot_eq

/-- The filled statement gives the same name. -/
theorem name?_refilled (h : Filled v name literal l l' before clause slot after)
    (mild : Mild literal) :
    (v.classify (!before.isEmpty) (slot.fill literal)).name? = some name := by
  have slot_eq := h.slot_eq
  rw [h.classified] at slot_eq
  rw [Vocabulary.name?_classify_fill slot_eq mild, ← h.classified, h.name_eq]

/-- The literal is exchanged in the text of the line, and nothing else. -/
theorem text (h : Filled v name literal l l' before clause slot after) :
    l.text = lead before ++ slot.before ++
      (slot.literal ++ (slot.after ++ rear after ++ l.comment)) ∧
      l'.text = lead before ++ slot.before ++
        (literal ++ (slot.after ++ rear after ++ l.comment)) := by
  rw [Line.text, Line.text, code_around h.clauses, code_around h.refilled,
    ← h.slot_text, h.comment]
  simp [Slot.text, Slot.fill]

theorem hasMark (h : Filled v name literal l l' before clause slot after) :
    l'.hasMark = l.hasMark := by
  have lengths : l'.clauses.length = l.clauses.length := by
    rw [h.clauses, h.refilled]; simp
  rw [Line.hasMark, Line.hasMark]
  cases hl : l.others <;> cases hl' : l'.others <;> simp_all [Line.clauses]

theorem hasComment (h : Filled v name literal l l' before clause slot after) :
    l'.hasComment = l.hasComment := by
  rw [Line.hasComment, Line.hasComment, h.comment]

/-- The places of the literals before the one that is filled stay, and those
after it move by the difference of the sizes. -/
theorem spans (h : Filled v name literal l l' before clause slot after) :
    ∃ base new, l.spans = spansFrom 0 before ++
        some ((lead before ++ slot.before).size,
          (lead before ++ slot.before).size + slot.literal.size) ::
          (spansFrom base after).map (moved slot.literal.size) ∧
      l'.spans = spansFrom 0 before ++
        new :: (spansFrom base after).map (moved literal.size) := by
  -- The places behind start at the same distance from the end of the literal.
  have size (literal : Text) :
      (lead before).size + (slot.fill literal).size + segmentMark.size =
      (lead before).size + slot.before.size + slot.after.size +
        segmentMark.size +
        literal.size := by
    simp only [Slot.fill, size_append]
    omega
  refine ⟨(lead before).size + slot.before.size + slot.after.size +
    segmentMark.size, ?_⟩
  simp only [Line.spans, h.clauses, h.refilled, spansFrom_append,
    ← spansFrom_add, ← size]
  simp only [spansFrom, h.slot_eq, Option.map_some, size_append, Nat.zero_add,
    ← h.slot_text]
  exact ⟨_, rfl, rfl⟩

end Filled

/-- What exchanging the literal of one statement leaves of a line: the other
statements, the marks and the comment, and the places of the other literals up
to the difference of the sizes. -/
structure Frame (v : Vocabulary) (literal : Text) (l l' : Line) (j : Nat)
    (s s' : Statement) (slot : Slot) (start : Nat) : Prop where
  statement : l.statements[j]? = some s
  statements : l'.statements = l.statements.set j s'
  slot_eq : s.slot? = some slot
  span : l.spans[j]? = some (some (start, start + slot.literal.size))
  spans_before : ∀ k < j, l'.spans[k]? = l.spans[k]?
  spans_behind : ∀ k > j, ∃ span : Option (Option (Nat × Nat)),
    l.spans[k]? = span.map (moved slot.literal.size) ∧
      l'.spans[k]? = span.map (moved literal.size)
  hasMark : l'.hasMark = l.hasMark
  hasComment : l'.hasComment = l.hasComment
  reread : l' = read v l'.text

theorem Filled.frame {name literal : Text} {l l' : Line} {before : List Clause}
    {clause : Clause} {slot : Slot} {after : List Clause}
    (h : Filled v name literal l l' before clause slot after) :
    Frame v literal l l' before.length clause.statement
      (v.classify (!before.isEmpty) (slot.fill literal)) slot
      (lead before ++ slot.before).size := by
  obtain ⟨statements, statements'⟩ := h.statements
  obtain ⟨base, new, spans, spans'⟩ := h.spans
  have first : (before.map Clause.statement).length = before.length :=
    List.length_map _
  have firstSpan : (spansFrom 0 before).length = before.length :=
    length_spansFrom 0 before
  -- A place behind the filled statement is one of the places that `after` has
  -- from `base` on.
  have behind (d size : Nat) (x : Option (Nat × Nat)) : (spansFrom 0 before ++
      x :: (spansFrom base after).map (moved size))[before.length + d + 1]? =
        (spansFrom base after)[d]?.map (moved size) := by
    rw [List.getElem?_append_right (by omega), firstSpan,
      show before.length + d + 1 - before.length = d + 1 by omega,
      List.getElem?_cons_succ, List.getElem?_map]
  refine ⟨?_, ?_, h.slot_eq, ?_, ?_, ?_, h.hasMark, h.hasComment, h.reread⟩
  · rw [statements, ← first]
    simp
  · rw [statements, statements', ← first]
    simp
  · rw [spans, ← firstSpan]
    simp
  · intro k lt
    rw [spans, spans', List.getElem?_append_left (firstSpan ▸ lt),
      List.getElem?_append_left (firstSpan ▸ lt)]
  · intro k gt
    obtain ⟨d, rfl⟩ := Nat.exists_eq_add_of_lt gt
    refine ⟨(spansFrom base after)[d]?, ?_, ?_⟩
    · rw [spans, behind]
    · rw [spans', behind]

end Line
end Worksheet

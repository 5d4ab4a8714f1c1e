import Mathlib.Data.List.Basic
import Worksheet.Proofs.Run
import Worksheet.Proofs.Source.Substitution
import Worksheet.Sheet

/-!
# Writing over values

Writes to two names come to the same source in either order, and a value in
braces that is written over leaves no trace. What was written to names that are
all written again is therefore forgotten, however often and in whichever order
it was written.
-/

namespace Worksheet

open Text

/-! ## Replacing in a list -/

section

variable {α : Type} {f g : α → Option α} {as bs cs : List α}

theorem replaceFirst?_cons_of_some {a b : α} (h : f a = some b) :
    replaceFirst? f (a :: as) = some (b :: as) := by
  rw [replaceFirst?, h]

theorem replaceFirst?_cons_of_none {a : α} (h : f a = none) :
    replaceFirst? f (a :: as) = (replaceFirst? f as).map (a :: ·) := by
  rw [replaceFirst?, h]

theorem replaceFirst?_of_none (h : ∀ a ∈ as, f a = none) :
    replaceFirst? f as = none := by
  induction as with
  | nil => rfl
  | cons a as ih =>
    rw [replaceFirst?_cons_of_none (h a List.mem_cons_self),
      ih fun x hx => h x (List.mem_cons_of_mem a hx)]
    rfl

theorem replaceFirst?_around {before : List α} {a b : α}
    (skipped : ∀ x ∈ before, f x = none) (found : f a = some b)
    (after : List α) :
    replaceFirst? f (before ++ a :: after) = some (before ++ b :: after) := by
  induction before with
  | nil => exact replaceFirst?_cons_of_some found
  | cons x before ih =>
    rw [List.cons_append, replaceFirst?_cons_of_none
      (skipped x List.mem_cons_self),
      ih fun y hy => skipped y (List.mem_cons_of_mem x hy)]
    rfl

/-- A replacement opens no place for another one. -/
theorem replaceFirst?_none_after
    (keeps : ∀ a ∈ as, ∀ b, f a = some b → g a = none → g b = none)
    (hf : replaceFirst? f as = some bs) (hg : replaceFirst? g as = none) :
    replaceFirst? g bs = none := by
  obtain ⟨before, a, b, after, rfl, rfl, hab, -⟩ :=
    Line.replaceFirst?_eq_some hf
  have none := replaceFirst?_eq_none hg
  apply replaceFirst?_of_none
  intro x hx
  rcases List.mem_append.1 hx with hx | hx
  · exact none x (by simp [hx])
  rcases List.mem_cons.1 hx with rfl | hx
  · exact keeps a (by simp) x hab (none a (by simp))
  · exact none x (by simp [hx])

/-- Two replacements meet in one list when they meet at every element. -/
theorem replaceFirst?_diamond
    (keepsF : ∀ a ∈ as, ∀ b, f a = some b → g a = none → g b = none)
    (keepsG : ∀ a ∈ as, ∀ c, g a = some c → f a = none → f c = none)
    (meet : ∀ a ∈ as, ∀ b c, f a = some b → g a = some c →
      ∃ d, g b = some d ∧ f c = some d)
    (hf : replaceFirst? f as = some bs) (hg : replaceFirst? g as = some cs) :
    ∃ ds, replaceFirst? g bs = some ds ∧ replaceFirst? f cs = some ds := by
  induction as generalizing bs cs with
  | nil => cases hf
  | cons a as ih =>
    cases hfa : f a with
    | some b =>
      rw [replaceFirst?_cons_of_some hfa] at hf
      cases hf
      cases hga : g a with
      | some c =>
        rw [replaceFirst?_cons_of_some hga] at hg
        cases hg
        obtain ⟨d, hd, hd'⟩ := meet a List.mem_cons_self b c hfa hga
        exact ⟨d :: as, replaceFirst?_cons_of_some hd,
          replaceFirst?_cons_of_some hd'⟩
      | none =>
        rw [replaceFirst?_cons_of_none hga] at hg
        obtain ⟨cs, hcs, rfl⟩ := Option.map_eq_some_iff.1 hg
        refine ⟨b :: cs, ?_, replaceFirst?_cons_of_some hfa⟩
        rw [replaceFirst?_cons_of_none (keepsF a List.mem_cons_self b hfa hga),
          hcs]
        rfl
    | none =>
      rw [replaceFirst?_cons_of_none hfa] at hf
      obtain ⟨bs, hbs, rfl⟩ := Option.map_eq_some_iff.1 hf
      cases hga : g a with
      | some c =>
        rw [replaceFirst?_cons_of_some hga] at hg
        cases hg
        refine ⟨c :: bs, replaceFirst?_cons_of_some hga, ?_⟩
        rw [replaceFirst?_cons_of_none (keepsG a List.mem_cons_self c hga hfa),
          hbs]
        rfl
      | none =>
        rw [replaceFirst?_cons_of_none hga] at hg
        obtain ⟨cs, hcs, rfl⟩ := Option.map_eq_some_iff.1 hg
        have tail {P : α → Prop} (h : ∀ x ∈ a :: as, P x) : ∀ x ∈ as, P x := by
          intro x hx
          exact h x (List.mem_cons_of_mem a hx)
        obtain ⟨ds, hds, hds'⟩ :=
          ih (tail keepsF) (tail keepsG) (tail meet) hbs hcs
        refine ⟨a :: ds, ?_, ?_⟩
        · rw [replaceFirst?_cons_of_none hga, hds]
          rfl
        · rw [replaceFirst?_cons_of_none hfa, hds']
          rfl

/-- A list is cut before its first element with a property in one way. -/
theorem split_unique {p : α → Bool} {before before' after after' : List α}
    {a a' : α} (same : before ++ a :: after = before' ++ a' :: after')
    (skipped : ∀ x ∈ before, p x = false) (found : p a = true)
    (skipped' : ∀ x ∈ before', p x = false) (found' : p a' = true) :
    before = before' ∧ a = a' ∧ after = after' := by
  have front (b : List α) (x : α) (rest : List α) (hb : ∀ y ∈ b, p y = false)
      (hx : p x = true) :
      (b ++ x :: rest).takeWhile (!p ·) = b := by
    rw [List.takeWhile_append_of_pos (by simpa using hb),
      List.takeWhile_cons_of_neg (by simp [hx]), List.append_nil]
  have fronts : before = before' := by
    rw [← front before a after skipped found, same,
      front before' a' after' skipped' found']
  rw [fronts, List.append_cancel_left_eq, List.cons.injEq] at same
  exact ⟨fronts, same⟩

end

/-! ## Lines -/

namespace Line

variable {v : Vocabulary} {l l' l₁ l₂ : Line}
  {name other literal literal' : Text}

theorem eq_of_clauses (clauses : l.clauses = l'.clauses)
    (comment : l.comment = l'.comment) :
    l = l' := by
  obtain ⟨first, others, comment₁⟩ := l
  obtain ⟨first', others', comment₂⟩ := l'
  obtain ⟨rfl, rfl⟩ := List.cons.inj clauses
  obtain rfl : comment₁ = comment₂ := comment
  rfl

theorem fill?_of_none (h : ∀ c ∈ l.clauses, c.statement.declares name = false) :
    l.fill? v name literal = none := by
  have unreplaced : replaceFirst? (·.fill? name literal) l.clauses = none := by
    apply replaceFirst?_of_none
    intro c hc
    exact Clause.fill?_eq_none.2 (h c hc)
  rw [Line.fill?, unreplaced]

section

variable {before after : List Clause} {clause : Clause} {slot : Slot}

theorem Filled.declares
    (h : Filled v name literal l l' before clause slot after) :
    clause.statement.declares name = true := by
  simp [Statement.declares, h.name_eq, h.slot_eq]

/-- Filling a line that is read as it stands. -/
theorem filled_of_reread (reread : l = read v l.text) (mild : Mild literal)
    (h : l.fill? v name literal = some l') :
    ∃ before clause slot after,
      Filled v name literal l l' before clause slot after := by
  rw [reread] at h
  have filled := filled_of_fill? mild h
  rwa [← reread] at filled

/-- A line is filled at the first clause that declares the name. -/
theorem filled_around (reread : l = read v l.text) (mild : Mild literal)
    (clauses : l.clauses = before ++ clause :: after)
    (skipped : ∀ c ∈ before, c.statement.declares name = false)
    (slot_eq : clause.statement.slot? = some slot)
    (name_eq : clause.statement.name? = some name) :
    ∃ l', l.fill? v name literal = some l' ∧
      Filled v name literal l l' before clause slot after := by
  have declares : clause.statement.declares name = true := by
    simp [Statement.declares, slot_eq, name_eq]
  cases hfill : l.fill? v name literal with
  | none =>
    have undeclared := fill?_eq_none hfill clause (by simp [clauses])
    rw [declares] at undeclared
    cases undeclared
  | some l' =>
    obtain ⟨before', clause', slot', after', filled⟩ :=
      filled_of_reread reread mild hfill
    obtain ⟨rfl, rfl, rfl⟩ :=
      split_unique (p := fun c => c.statement.declares name)
        (clauses.symm.trans filled.clauses) skipped declares filled.skipped
        filled.declares
    obtain rfl : slot = slot' :=
      Option.some.inj (slot_eq.symm.trans filled.slot_eq)
    exact ⟨l', rfl, filled⟩

/-- The new clause of a filled line declares no other name. -/
theorem Filled.refilled_other
    (h : Filled v name literal l l' before clause slot after)
    (mild : Mild literal) (ne : name ≠ other) :
    (v.classify (!before.isEmpty) (slot.fill literal)).declares other = false :=
  LineTable.declares_of_ne (by simpa [h.name?_refilled mild] using ne)

theorem Filled.clause_other
    (h : Filled v name literal l l' before clause slot after)
    (ne : name ≠ other) : clause.statement.declares other = false :=
  LineTable.declares_of_ne (by simpa [h.name_eq] using ne)

/-- Two clauses of a line are filled in either order. -/
theorem Filled.meet {mid : List Clause} {clause' : Clause} {slot' : Slot}
    (h₁ : Filled v name literal l l₁ before clause slot
      (mid ++ clause' :: after))
    (h₂ : Filled v other literal' l l₂
      (before ++ clause :: mid) clause' slot' after)
    (mild : Mild literal) (mild' : Mild literal') (ne : name ≠ other) :
    ∃ l', l₁.fill? v other literal' = some l' ∧
      l₂.fill? v name literal = some l' := by
  have clauses₁ := h₁.refilled
  rw [← List.cons_append, ← List.append_assoc] at clauses₁
  have skipped : ∀ c ∈ before ++
      ⟨slot.fill literal, v.classify (!before.isEmpty)
        (slot.fill literal)⟩ :: mid,
      c.statement.declares other = false := by
    intro c hc
    rcases List.mem_append.1 hc with hc | hc
    · exact h₂.skipped c (by simp [hc])
    rcases List.mem_cons.1 hc with rfl | hc
    · exact h₁.refilled_other mild ne
    · exact h₂.skipped c (by simp [hc])
  obtain ⟨l', hl', filled'⟩ :=
    filled_around h₁.reread mild' clauses₁ skipped h₂.slot_eq h₂.name_eq
  have clauses₂ := h₂.refilled
  rw [List.append_assoc, List.cons_append] at clauses₂
  obtain ⟨l'', hl'', filled''⟩ :=
    filled_around h₂.reread mild clauses₂ h₁.skipped h₁.slot_eq h₁.name_eq
  -- Both ways the two clauses have their new texts, and the others stay.
  have behind (c : Clause) : (before ++ c :: mid).isEmpty = false := by simp
  have same : l' = l'' := by
    apply eq_of_clauses
    · rw [filled'.refilled, filled''.refilled, behind, behind]
      simp
    · rw [filled'.comment, filled''.comment, h₁.comment, h₂.comment]
  exact ⟨l', hl', same ▸ hl''⟩

end

theorem fill?_none_after (reread : l = read v l.text) (mild : Mild literal)
    (ne : name ≠ other) (h : l.fill? v name literal = some l₁)
    (unfilled : l.fill? v other literal' = none) :
    l₁.fill? v other literal' = none := by
  obtain ⟨before, clause, slot, after, filled⟩ := filled_of_reread reread mild h
  have undeclared := fill?_eq_none unfilled
  rw [filled.clauses] at undeclared
  apply fill?_of_none
  rw [filled.refilled]
  intro c hc
  rcases List.mem_append.1 hc with hc | hc
  · exact undeclared c (by simp [hc])
  rcases List.mem_cons.1 hc with rfl | hc
  · exact filled.refilled_other mild ne
  · exact undeclared c (by simp [hc])

/-- Literals for two names are filled into a line in either order. -/
theorem fill?_diamond (reread : l = read v l.text) (mild : Mild literal)
    (mild' : Mild literal') (ne : name ≠ other)
    (h₁ : l.fill? v name literal = some l₁)
    (h₂ : l.fill? v other literal' = some l₂) :
    ∃ l', l₁.fill? v other literal' = some l' ∧
      l₂.fill? v name literal = some l' := by
  obtain ⟨before, clause, slot, after, filled₁⟩ :=
    filled_of_reread reread mild h₁
  obtain ⟨before', clause', slot', after', filled₂⟩ :=
    filled_of_reread reread mild' h₂
  have distinct : clause ≠ clause' := by
    rintro rfl
    have undeclared := filled₁.clause_other ne
    rw [filled₂.declares] at undeclared
    cases undeclared
  -- One of the two clauses comes first.
  have cuts := filled₁.clauses.symm.trans filled₂.clauses
  rcases List.append_eq_append_iff.1 cuts with
    ⟨mid, rfl, hmid⟩ | ⟨mid, rfl, hmid⟩
  · cases mid with
    | nil => exact absurd (List.cons.inj hmid).1 distinct
    | cons c mid =>
      obtain ⟨rfl, rfl⟩ := List.cons.inj hmid
      exact filled₁.meet filled₂ mild mild' ne
  · cases mid with
    | nil => exact absurd (List.cons.inj hmid).1.symm distinct
    | cons c mid =>
      obtain ⟨rfl, rfl⟩ := List.cons.inj hmid
      obtain ⟨l', hl', hl''⟩ := filled₂.meet filled₁ mild' mild (Ne.symm ne)
      exact ⟨l', hl'', hl'⟩

/-- A literal in braces is written over without a trace. -/
theorem Filled.again {before after : List Clause} {clause : Clause}
    {slot : Slot} (h : Filled v name literal l l' before clause slot after)
    (reread : l = read v l.text) (mild : Mild literal) (mild' : Mild literal')
    (braced : Vocabulary.Braced clause.statement.body) :
    ∃ l'', l'.fill? v name literal' = some l'' ∧
      l.fill? v name literal' = some l'' := by
  have slot_eq := h.slot_eq
  rw [h.classified] at slot_eq braced
  obtain ⟨form, name', unit, body, body', old, new, -⟩ :=
    Vocabulary.classify_refill_braced slot_eq braced mild
  have slot_eq' : (v.classify (!before.isEmpty) (slot.fill literal)).slot? =
      some { slot with literal } := by rw [new]; rfl
  obtain ⟨l₁, hl₁, filled₁⟩ :=
    filled_around h.reread mild' h.refilled h.skipped slot_eq'
      (h.name?_refilled mild)
  obtain ⟨l₂, hl₂, filled₂⟩ :=
    filled_around reread mild' h.clauses h.skipped h.slot_eq h.name_eq
  have same : l₁ = l₂ := by
    apply eq_of_clauses
    · rw [filled₁.refilled, filled₂.refilled]
      rfl
    · rw [filled₁.comment, filled₂.comment, h.comment]
  exact ⟨l₁, hl₁, same ▸ hl₂⟩

end Line

/-! ## Tables -/

/-- The statement that declares a name first. -/
def LineTable.declaration? (t : LineTable) (name : Text) : Option Statement :=
  (t.flatMap fun r => r.line.statements).find? (·.declares name)

/-- The first declaration of a name in a source, if there is one, is an input in
braces. -/
def InBraces (v : Vocabulary) (source name : Text) : Prop :=
  ∀ s, (LineTable.read v source).declaration? name = some s →
    Vocabulary.Braced s.body

namespace LineTable

variable {v : Vocabulary} {source name other literal literal' : Text}
  {t t₁ t₂ : LineTable}

/-- The row with a literal in the slot of its first declaration of the name. -/
def fillRow (v : Vocabulary) (name literal : Text) (r : LineRow) :
    Option LineRow :=
  (r.line.fill? v name literal).map fun l => ⟨l, r.ending⟩

theorem fill?_eq (t : LineTable) :
    t.fill? v name literal = replaceFirst? (fillRow v name literal) t := rfl

theorem fillRow_eq_none {r : LineRow} :
    fillRow v name literal r = none ↔ r.line.fill? v name literal = none :=
  Option.map_eq_none_iff

theorem fillRow_eq_some {r r' : LineRow} :
    fillRow v name literal r = some r' ↔
      r.line.fill? v name literal = some r'.line ∧ r'.ending = r.ending := by
  obtain ⟨line', ending'⟩ := r'
  simp only [fillRow, Option.map_eq_some_iff, LineRow.mk.injEq]
  constructor
  · rintro ⟨l, hl, rfl, rfl⟩
    exact ⟨hl, rfl⟩
  · rintro ⟨hl, rfl⟩
    exact ⟨line', hl, rfl, rfl⟩

theorem reread_of_mem {r : LineRow} (h : r ∈ read v source) :
    r.line = .read v r.line.text := by
  obtain ⟨row, -, rfl⟩ := List.mem_map.1 h
  rw [Line.text_read]

/-- Whether a slot is found does not depend on the literal. -/
theorem fill?_none_of_none (h : t.fill? v name literal = none) :
    t.fill? v name literal' = none := by
  apply replaceFirst?_of_none
  intro r hr
  have unfilled := fillRow_eq_none.1 (replaceFirst?_eq_none h r hr)
  exact fillRow_eq_none.2 (Line.fill?_of_none (Line.fill?_eq_none unfilled))

/-- The rows of a source that are filled, and the clause in the row. -/
theorem exists_filled (mild : Mild literal)
    (h : (read v source).fill? v name literal = some t) :
    ∃ above content ending line' below before clause slot after,
      Filled v name literal source t above content ending line' below ∧
      Line.Filled v name literal
        (.read v content) line' before clause slot after := by
  obtain ⟨above, content, ending, line', below, filled⟩ := filled_of_fill? h
  obtain ⟨before, clause, slot, after, line⟩ :=
    Line.filled_of_fill? mild filled.fill
  exact ⟨above, content, ending, line', below, before, clause, slot, after,
    filled, line⟩

/-- A filled table is what reading its text gives. -/
theorem read_source_of_fill? (mild : Mild literal)
    (h : (read v source).fill? v name literal = some t) :
    read v t.source = t := by
  obtain ⟨above, content, ending, line', below, before, clause, slot, after,
      filled, line⟩ :=
    exists_filled mild h
  exact filled.read_source line mild

theorem fillRow_none_after {r r' : LineRow} (hr : r ∈ read v source)
    (mild : Mild literal) (ne : name ≠ other)
    (filled : fillRow v name literal r = some r')
    (unfilled : fillRow v other literal' r = none) :
    fillRow v other literal' r' = none := by
  rw [fillRow_eq_none] at unfilled ⊢
  exact Line.fill?_none_after (reread_of_mem hr) mild ne
    (fillRow_eq_some.1 filled).1 unfilled

theorem fill?_none_after (mild : Mild literal) (ne : name ≠ other)
    (h : (read v source).fill? v name literal = some t)
    (unfilled : (read v source).fill? v other literal' = none) :
    t.fill? v other literal' = none := by
  refine replaceFirst?_none_after ?_ h unfilled
  intro r hr r'
  exact fillRow_none_after hr mild ne

/-- Literals for two names are filled into a source in either order. -/
theorem fill?_diamond (mild : Mild literal) (mild' : Mild literal')
    (ne : name ≠ other) (h₁ : (read v source).fill? v name literal = some t₁)
    (h₂ : (read v source).fill? v other literal' = some t₂) :
    ∃ t', t₁.fill? v other literal' = some t' ∧
      t₂.fill? v name literal = some t' := by
  refine replaceFirst?_diamond ?_ ?_ ?_ h₁ h₂
  · intro r hr r'
    exact fillRow_none_after hr mild ne
  · intro r hr r'
    exact fillRow_none_after hr mild' (Ne.symm ne)
  · intro r hr r₁ r₂ filled₁ filled₂
    obtain ⟨line₁, ending₁⟩ := fillRow_eq_some.1 filled₁
    obtain ⟨line₂, ending₂⟩ := fillRow_eq_some.1 filled₂
    obtain ⟨l', hl', hl''⟩ :=
      Line.fill?_diamond (reread_of_mem hr) mild mild' ne line₁ line₂
    refine ⟨⟨l', r.ending⟩, ?_, ?_⟩
    · exact fillRow_eq_some.2 ⟨hl', ending₁.symm⟩
    · exact fillRow_eq_some.2 ⟨hl'', ending₂.symm⟩

section

variable {above below : List Row} {content : Text} {ending : Ending}
  {line' : Line} {before after : List Clause} {clause : Clause} {slot : Slot}

/-- The statements of a filled table: the one that declares the name first
is classified again. -/
theorem Filled.statements_around
    (h : Filled v name literal source t above content ending line' below)
    (line : Line.Filled v name literal
      (.read v content) line' before clause slot after) :
    ∃ front back, (∀ s ∈ front, s.declares name = false) ∧
      ((read v source).flatMap fun r => r.line.statements) =
        front ++ clause.statement :: back ∧
      (t.flatMap fun r => r.line.statements) =
        front ++ v.classify (!before.isEmpty) (slot.fill literal) :: back := by
  obtain ⟨old, new⟩ := line.statements
  refine ⟨(above.map (readRow v)).flatMap (fun r => r.line.statements) ++
      before.map Clause.statement,
    after.map Clause.statement ++
      (below.map (readRow v)).flatMap fun r => r.line.statements,
    ?_, ?_, ?_⟩
  · intro s hs
    rcases List.mem_append.1 hs with hs | hs
    · obtain ⟨r, hr, hs⟩ := List.mem_flatMap.1 hs
      obtain ⟨row, hrow, rfl⟩ := List.mem_map.1 hr
      obtain ⟨c, hc, rfl⟩ := List.mem_map.1 hs
      exact h.skipped row hrow c hc
    · obtain ⟨c, hc, rfl⟩ := List.mem_map.1 hs
      exact line.skipped c hc
  · rw [h.read_eq, List.flatMap_append, List.flatMap_cons, readRow, old]
    simp
  · rw [h.refilled, List.flatMap_append, List.flatMap_cons, new]
    simp

theorem find?_around {α : Type} {p : α → Bool} {front : List α} {a : α}
    (skipped : ∀ x ∈ front, p x = false) (found : p a = true) (back : List α) :
    (front ++ a :: back).find? p = some a := by
  have none : front.find? p = none := by
    simpa [List.find?_eq_none] using skipped
  rw [List.find?_append, none, List.find?_cons_of_pos found]
  rfl

theorem find?_replace {α : Type} {p : α → Bool} {a b : α} (ha : p a = false)
    (hb : p b = false) (front back : List α) :
    (front ++ a :: back).find? p = (front ++ b :: back).find? p := by
  simp [List.find?_append, ha, hb]

/-- The first declaration of the filled name. -/
theorem Filled.declaration?_eq
    (h : Filled v name literal source t above content ending line' below)
    (line : Line.Filled v name literal
      (.read v content) line' before clause slot after) :
    (read v source).declaration? name = some clause.statement := by
  obtain ⟨front, back, skipped, old, -⟩ := h.statements_around line
  rw [declaration?, old]
  exact find?_around skipped line.declares back

/-- The filled statement is the first declaration of its name still, as long as
it has a slot. -/
theorem Filled.declaration?_refilled
    (h : Filled v name literal source t above content ending line' below)
    (line : Line.Filled v name literal
      (.read v content) line' before clause slot after)
    (mild : Mild literal)
    (slotted :
      (v.classify (!before.isEmpty) (slot.fill literal)).slot?.isSome = true) :
    t.declaration? name =
      some (v.classify (!before.isEmpty) (slot.fill literal)) := by
  obtain ⟨front, back, skipped, -, new⟩ := h.statements_around line
  rw [declaration?, new]
  apply find?_around skipped
  simp [Statement.declares, line.name?_refilled mild, slotted]

end

/-- The first declarations of other names stay. -/
theorem declaration?_fill?_of_ne (mild : Mild literal) (ne : name ≠ other)
    (h : (read v source).fill? v name literal = some t) :
    t.declaration? other = (read v source).declaration? other := by
  obtain ⟨above, content, ending, line', below, before, clause, slot, after,
      filled, line⟩ :=
    exists_filled mild h
  obtain ⟨front, back, -, old, new⟩ := filled.statements_around line
  rw [declaration?, declaration?, old, new]
  exact (find?_replace (p := (·.declares other)) (line.clause_other ne)
    (line.refilled_other mild ne) front back).symm

/-- First declarations in braces stay in braces. -/
theorem inBraces_of_filled (mild : Mild literal)
    (h : (read v source).fill? v name literal = some t)
    (braced : InBraces v source other) :
    InBraces v t.source other := by
  intro s hs
  rw [read_source_of_fill? mild h] at hs
  by_cases ne : name = other
  · -- The statement that was filled has its braces still.
    subst ne
    obtain ⟨above, content, ending, line', below, before, clause, slot, after,
        filled, line⟩ :=
      exists_filled mild h
    have declared := braced _ (filled.declaration?_eq line)
    have slot_eq := line.slot_eq
    rw [line.classified] at slot_eq declared
    obtain ⟨form, name', unit, body, body', -, refilled, bracedBody⟩ :=
      Vocabulary.classify_refill_braced slot_eq declared mild
    rw [filled.declaration?_refilled line mild (by rw [refilled]; rfl),
      Option.some.injEq] at hs
    rw [← hs, refilled]
    exact bracedBody
  · apply braced
    rw [← hs, declaration?_fill?_of_ne mild ne h]

/-- A literal in braces is written over without a trace. -/
theorem fill?_again (mild : Mild literal) (mild' : Mild literal')
    (h : (read v source).fill? v name literal = some t)
    (braced : InBraces v source name) :
    t.fill? v name literal' = (read v source).fill? v name literal' := by
  obtain ⟨above, content, ending, line', below, before, clause, slot, after,
      filled, line⟩ :=
    exists_filled mild h
  have declared := braced _ (filled.declaration?_eq line)
  obtain ⟨l'', again, first⟩ :=
    line.again (by rw [Line.text_read]) mild mild' declared
  have skipped : ∀ r ∈ above.map (readRow v),
      fillRow v name literal' r = none := by
    intro r hr
    obtain ⟨row, hrow, rfl⟩ := List.mem_map.1 hr
    exact fillRow_eq_none.2 (Line.fill?_of_none (filled.skipped row hrow))
  have again' : fillRow v name literal' ⟨line', ending⟩ = some ⟨l'', ending⟩ :=
    fillRow_eq_some.2 ⟨again, rfl⟩
  have first' : fillRow v name literal' (readRow v ⟨content, ending⟩) =
      some ⟨l'', ending⟩ :=
    fillRow_eq_some.2 ⟨first, rfl⟩
  rw [fill?_eq, fill?_eq, filled.refilled, filled.read_eq,
    replaceFirst?_around skipped again', replaceFirst?_around skipped first']

end LineTable

/-! ## Sources -/

namespace Sheet

variable {v : Vocabulary} {source name other : Text} {x y : Float}

/-- The plain notation of a double is mild, also when it is a name. -/
theorem mild_plain (x : Float) : Mild (Decimal.plain x) := by
  by_cases finite : x.isFinite = true
  · obtain ⟨n, written, -, htext, -⟩ := Decimal.exists_plain finite
    exact htext ▸ .of_written written
  · rw [Decimal.plain]
    rcases Decimal.writeWith_of_not_finite _ finite with
      ⟨-, name⟩ | ⟨-, name⟩ | ⟨-, name⟩ <;>
      exact name ▸ ⟨by decide, List.all_eq_true.1 (by decide)⟩

/-- What writing a finite value does, by whether a slot is found. -/
theorem assign_of_fill? (finite : x.isFinite = true) :
    assign v source name x =
      match (LineTable.read v source).fill? v name (Decimal.plain x) with
      | some t => .ok t.source
      | none => .error (.unknownVariable name) := by
  rw [assign, if_pos finite, LineTable.setValue]
  cases (LineTable.read v source).fill? v name (Decimal.plain x) <;> rfl

/-- The source after an attempt to write a value; it stays when there is no
place for the value. -/
def written (v : Vocabulary) (source : Text) (w : Text × Float) : Text :=
  match assign v source w.1 w.2 with
  | .ok s => s
  | .error _ => source

theorem written_of_ok {s : Text} (h : assign v source name x = .ok s) :
    written v source (name, x) = s := by
  rw [written, h]

theorem written_of_error {e : SheetError}
    (h : assign v source name x = .error e) :
    written v source (name, x) = source := by
  rw [written, h]

/-- Writes a value to a name in a source. -/
def rewrite (v : Vocabulary) (source : Text) (w : Text × Float) :
    Except SheetError Text :=
  assign v source w.1 w.2

theorem attempt_rewrite_fst (v : Vocabulary) (source : Text)
    (w : Text × Float) :
    (attempt (rewrite v) source w).1 = written v source w := by
  rw [attempt, rewrite, written]
  cases assign v source w.1 w.2 <;> rfl

/-- Whether and where a value is written does not depend on what another name
holds. -/
theorem assign_written (finite : x.isFinite = true)
    (finite' : y.isFinite = true) (ne : name ≠ other) :
    assign v (written v source (other, y)) name x =
      (assign v source name x).map fun s => written v s (other, y) := by
  have mild := mild_plain x
  have mild' := mild_plain y
  cases hy : (LineTable.read v source).fill? v other (Decimal.plain y) with
  | none =>
    have unwritten : written v source (other, y) = source :=
      written_of_error (by rw [assign_of_fill? finite', hy])
    rw [unwritten, assign_of_fill? finite]
    cases hx : (LineTable.read v source).fill? v name (Decimal.plain x) with
    | none => rfl
    | some t =>
      have still := LineTable.fill?_none_after mild ne hx hy
      rw [← LineTable.read_source_of_fill? mild hx] at still
      exact congrArg _
        (written_of_error (by rw [assign_of_fill? finite', still])).symm
  | some t =>
    have read := LineTable.read_source_of_fill? mild' hy
    have wrote : written v source (other, y) = t.source :=
      written_of_ok (by rw [assign_of_fill? finite', hy])
    rw [wrote, assign_of_fill? finite, assign_of_fill? finite, read]
    cases hx : (LineTable.read v source).fill? v name (Decimal.plain x) with
    | none => rw [LineTable.fill?_none_after mild' (Ne.symm ne) hy hx]; rfl
    | some t' =>
      obtain ⟨t'', first, second⟩ :=
        LineTable.fill?_diamond mild' mild (Ne.symm ne) hy hx
      rw [← LineTable.read_source_of_fill? mild hx] at second
      rw [first]
      exact congrArg _
        (written_of_ok (by rw [assign_of_fill? finite', second])).symm

/-- A value in braces is written over without a trace. -/
theorem assign_again (finite : x.isFinite = true) (finite' : y.isFinite = true)
    (braced : InBraces v source name) :
    assign v (written v source (name, y)) name x = assign v source name x := by
  cases hy : (LineTable.read v source).fill? v name (Decimal.plain y) with
  | none => rw [written_of_error (by rw [assign_of_fill? finite', hy])]
  | some t =>
    have mild := mild_plain y
    have again := LineTable.fill?_again mild (mild_plain x) hy braced
    rw [written_of_ok (by rw [assign_of_fill? finite', hy]),
      assign_of_fill? finite, assign_of_fill? finite,
      LineTable.read_source_of_fill? mild hy, again]

theorem inBraces_written (finite : x.isFinite = true)
    (braced : InBraces v source other) :
    InBraces v (written v source (name, x)) other := by
  cases hx : (LineTable.read v source).fill? v name (Decimal.plain x) with
  | none =>
    rw [written_of_error (by rw [assign_of_fill? finite, hx])]
    exact braced
  | some t =>
    rw [written_of_ok (by rw [assign_of_fill? finite, hx])]
    exact LineTable.inBraces_of_filled (mild_plain x) hx braced

/-! ## Runs of writes -/

/-- Values that can be written to some of the names. -/
def Writes (names : List Text) (values : List (Text × Float)) : Prop :=
  ∀ w ∈ values, w.1 ∈ names ∧ w.2.isFinite = true

theorem assignAll_fst (values : List (Text × Float)) :
    (assignAll v source values).1 = values.foldl (written v) source := by
  induction values generalizing source with
  | nil => rfl
  | cons w values ih =>
    obtain ⟨name, x⟩ := w
    rw [assignAll, List.foldl_cons]
    cases h : assign v source name x with
    | ok s =>
      rw [written_of_ok h]
      exact ih
    | error e =>
      rw [written_of_error h]
      exact ih

/-- Whether there is something to write to does not depend on what is
written. -/
theorem exists_assign_of_fill? {literal : Text} {t : LineTable}
    (finite : x.isFinite = true)
    (filled : (LineTable.read v source).fill? v name literal = some t) :
    ∃ s, assign v source name x = .ok s := by
  rw [assign_of_fill? finite]
  split
  · exact ⟨_, rfl⟩
  · next unfilled =>
    rw [LineTable.fill?_none_of_none unfilled] at filled
    cases filled

/-- A write is forgotten when the first one after it is to the same name. -/
theorem assignAll_written_self {values : List (Text × Float)}
    (finite : x.isFinite = true) (finite' : y.isFinite = true)
    (braced : InBraces v source name) :
    assignAll v (written v source (name, y)) ((name, x) :: values) =
      assignAll v source ((name, x) :: values) := by
  cases hy : (LineTable.read v source).fill? v name (Decimal.plain y) with
  | none => rw [written_of_error (by rw [assign_of_fill? finite', hy])]
  | some t =>
    obtain ⟨s, hx⟩ := exists_assign_of_fill? finite hy
    rw [assignAll, assignAll, assign_again finite finite' braced, hx]

/-- A write before others is forgotten when they write to its name too. -/
theorem assignAll_written {values : List (Text × Float)}
    (mem : name ∈ values.map Prod.fst)
    (finite : ∀ w ∈ values, w.2.isFinite = true) (finite' : y.isFinite = true)
    (braced : InBraces v source name) :
    assignAll v (written v source (name, y)) values =
      assignAll v source values := by
  induction values generalizing source with
  | nil => simp at mem
  | cons w values ih =>
    obtain ⟨other, x⟩ := w
    have finiteX : x.isFinite = true := finite (other, x) List.mem_cons_self
    by_cases same : other = name
    · subst same
      exact assignAll_written_self finiteX finite' braced
    · have rest : name ∈ values.map Prod.fst := by
        rcases List.mem_cons.1 mem with rfl | mem
        · exact absurd rfl same
        · exact mem
      have finiteRest : ∀ w ∈ values, w.2.isFinite = true := by
        intro w hw
        exact finite w (List.mem_cons_of_mem _ hw)
      rw [assignAll, assignAll, assign_written finiteX finite' same]
      cases hx : assign v source other x with
      | ok s =>
        have braced' : InBraces v s name := by
          rw [← written_of_ok hx]
          exact inBraces_written finiteX braced
        simp only [Except.map, ih rest finiteRest braced']
      | error e => simp only [Except.map, ih rest finiteRest braced]

/-- Writes to names that are all written again are forgotten. -/
theorem assignAll_assignAll {earlier values : List (Text × Float)}
    (writes : Writes (values.map Prod.fst) earlier)
    (finite : ∀ w ∈ values, w.2.isFinite = true)
    (braced : ∀ name ∈ values.map Prod.fst, InBraces v source name) :
    assignAll v (assignAll v source earlier).1 values =
      assignAll v source values := by
  rw [assignAll_fst]
  induction earlier generalizing source with
  | nil => rfl
  | cons w earlier ih =>
    obtain ⟨name, y⟩ := w
    obtain ⟨mem, finite'⟩ := writes (name, y) List.mem_cons_self
    have writesRest : Writes (values.map Prod.fst) earlier := by
      intro w hw
      exact writes w (List.mem_cons_of_mem _ hw)
    have braced' : ∀ other ∈ values.map Prod.fst,
        InBraces v (written v source (name, y)) other := by
      intro other hother
      exact inBraces_written finite' (braced other hother)
    rw [List.foldl_cons, ih writesRest braced']
    exact assignAll_written mem finite finite' (braced name mem)

end Sheet
end Worksheet

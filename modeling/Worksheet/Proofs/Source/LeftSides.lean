import Worksheet.Proofs.Source.Expansion
import Worksheet.Proofs.Text.Row

/-!
# Left sides of an expanded source

Only the code of a line is expanded, in front of its comment. No alias holds
what lines are cut at, so that the expanded source has the same rows with the
same endings, each row the same marks, and each segment is expanded for itself.
The names on the left sides of a source are therefore those of the expanded
source.
-/

namespace Worksheet.UnitAlias

open Text Vocabulary

variable {aliases : List UnitAlias} {before s t : Text}

/-! ## Lines -/

theorem Expands.mem {c : Char} (h : Expands aliases before s t) (hc : c ∈ t) :
    c ∈ s ∨ ∃ a ∈ aliases, c ∈ a.expansion := by
  induction h with
  | nil => cases hc
  | keep _ ih =>
    rcases List.mem_cons.1 hc with rfl | hc
    · exact .inl List.mem_cons_self
    · exact (ih hc).imp_left (List.mem_cons_of_mem _)
  | @expand _ _ _ a known _ _ ih =>
    rcases List.mem_append.1 hc with hc | hc
    · exact .inr ⟨a, known, hc⟩
    · exact (ih hc).imp_left (List.mem_append_right _)

theorem Expands.uncommented (inert : ∀ a ∈ aliases, a.Inert)
    (h : Expands aliases before s t) (hs : Uncommented s) : Uncommented t := by
  intro c hc
  rcases h.mem hc with hc | ⟨a, known, hc⟩
  · exact hs c hc
  · exact ((inert a known).expansion c hc).2.1

theorem Expands.cons_of_not_place {c : Char}
    (apart : unitCanFollow before = false)
    (h : Expands aliases before (c :: s) t) :
    ∃ t', t = c :: t' ∧ Expands aliases (c :: before) s t' := by
  generalize hs : c :: s = u at h
  cases h with
  | nil => cases hs
  | keep rest =>
    obtain ⟨rfl, rfl⟩ := List.cons.inj hs
    exact ⟨_, rfl, rest⟩
  | expand _ place _ =>
    rw [apart] at place
    cases place

/-- A segment and its expansion behind a mark or at the front of a line. -/
def SegmentExpands (aliases : List UnitAlias) (s t : Text) : Prop :=
  ∃ older, AtMark older ∧ Expands aliases older s t

/-- Marks stay where they are, and each segment is expanded for itself. -/
theorem Expands.joinSegments (inert : ∀ a ∈ aliases, a.Inert) {first : Text}
    {others : List Text} (mark : AtMark before)
    (h : Expands aliases before (joinSegments first others) t) :
    ∃ first' others', t = Worksheet.joinSegments first' others' ∧
      List.Forall₂ (SegmentExpands aliases) (first :: others)
        (first' :: others') := by
  have free : ∀ a ∈ aliases, '\'' ∉ a.name :=
    fun a ha quote => ((inert a ha).name _ quote).2.1 rfl
  induction others generalizing first before t with
  | nil =>
    rw [Worksheet.joinSegments, List.flatMap_nil, List.append_nil] at h
    exact ⟨t, [], by simp [Worksheet.joinSegments],
      .cons ⟨before, mark, h⟩ .nil⟩
  | cons o others ih =>
    have marked : Worksheet.joinSegments first (o :: others) =
        first ++ '\'' :: (';' :: '\'' :: Worksheet.joinSegments o others) := by
      simp [Worksheet.joinSegments, segmentMark]
    rw [marked] at h
    obtain ⟨first', y, rfl, front, later⟩ := h.of_append free
    obtain ⟨y, rfl, middle⟩ :=
      later.cons_of_not_place (not_unitCanFollow_of_head (by decide) _)
    obtain ⟨y, rfl, behind⟩ :=
      middle.cons_of_not_place (not_unitCanFollow_of_head (by decide) _)
    obtain ⟨o', others', rfl, segments⟩ := ih (rfl : AtMark ('\'' :: _)) behind
    exact ⟨first', o' :: others', by simp [Worksheet.joinSegments, segmentMark],
      .cons ⟨before, mark, front⟩ segments⟩

/-- What holds on the left of a relation between lists holds on its right when
each pair keeps it. -/
theorem forall_mem_right {R : Text → Text → Prop} {p q : Text → Prop}
    {xs ys : List Text} (h : List.Forall₂ R xs ys) (hp : ∀ x ∈ xs, p x)
    (keeps : ∀ x y, p x → R x y → q y) :
    ∀ y ∈ ys, q y := by
  induction h with
  | nil => simp
  | cons related _ ih =>
    rw [List.forall_mem_cons] at hp ⊢
    exact ⟨keeps _ _ hp.1 related, ih hp.2⟩

/-- The names on the left sides of a line. -/
def lineNames (v : Vocabulary) (s : Text) : List Text :=
  (Line.read v s).statements.filterMap Statement.name?

/-- The segments of a line. -/
def segments (s : Text) : List Text :=
  (Cut.ofText s).first :: (Cut.ofText s).others

/-- The names of a line are told by the names of its segments. -/
theorem lineNames_congr {v : Vocabulary} {s t : Text}
    (same : List.Forall₂
      (fun x y => ∀ joined, (v.classify joined y).name? =
        (v.classify joined x).name?)
      (segments s) (segments t)) : lineNames v t = lineNames v s := by
  have behind {xs ys : List Text}
      (same : List.Forall₂
        (fun x y => ∀ joined, (v.classify joined y).name? =
          (v.classify joined x).name?) xs ys) :
      (ys.map (v.classify true)).filterMap Statement.name? =
        (xs.map (v.classify true)).filterMap Statement.name? := by
    induction same with
    | nil => rfl
    | cons h _ ih => simp only [List.map_cons, List.filterMap_cons, h true, ih]
  have clauses (s : Text) : (Line.read v s).statements =
      v.classify false (Cut.ofText s).first ::
        (Cut.ofText s).others.map (v.classify true) := by
    simp [Line.read, Line.statements, Line.clauses]
  rw [segments, segments] at same
  cases same with
  | cons first others =>
    rw [lineNames, lineNames, clauses, clauses, List.filterMap_cons,
      List.filterMap_cons, first false, behind others]

/-- An expansion keeps the names of a line. -/
theorem Expands.lineNames_eq (inert : ∀ a ∈ aliases, a.Inert) {v : Vocabulary}
    {line : Text} (apart : ∀ x ∈ segments line, LeftsApart x)
    (h : Expands aliases [] (Line.read v line).code t) :
    lineNames v (t ++ (Line.read v line).comment) = lineNames v line := by
  have code : (Line.read v line).code =
      Worksheet.joinSegments (Cut.ofText line).first
        (Cut.ofText line).others := by
    simp [Line.read, Line.code, List.map_map, Function.comp_def]
  rw [code] at h
  obtain ⟨first', others', rfl, expanded⟩ :=
    Expands.joinSegments inert (rfl : AtMark []) h
  have cut := Cut.wellFormed_ofText line
  have inside : ∀ x ∈ segments line, Uncommented x ∧ LeftsApart x := by
    intro x hx
    refine ⟨?_, apart x hx⟩
    rcases List.mem_cons.1 hx with rfl | hx
    · exact cut.first
    · exact cut.others x hx
  have each := (List.forall₂_and_left _ _).2 ⟨inside, expanded⟩
  have uncommented : ∀ y ∈ first' :: others', Uncommented y := by
    refine forall_mem_right expanded inside ?_
    rintro x y ⟨plain, -⟩ ⟨older, -, expands⟩
    exact expands.uncommented inert plain
  have whole : Cut.WellFormed ⟨first', others', (Line.read v line).comment⟩ :=
    ⟨uncommented _ List.mem_cons_self,
      fun x hx => uncommented x (List.mem_cons_of_mem _ hx), cut.comment⟩
  have parts := Cut.ofText_text whole
  rw [Cut.text] at parts
  apply lineNames_congr
  rw [segments, segments, parts]
  apply each.imp
  rintro x y ⟨⟨-, lefts⟩, older, mark, expands⟩ joined
  exact expands.name?_classify inert mark lefts v joined

/-! ## Endings -/

/-- Text without equals signs at the end belongs to the right sides. -/
theorem assignmentsAfter_append_right {u : Text}
    (free : ∀ c ∈ u, isEquals c = false) (before s : Text) :
    assignmentsAfter before (s ++ u) =
      (assignmentsAfter before s).map fun a =>
        { a with right := a.right ++ u } := by
  induction s generalizing before with
  | nil =>
    have none := assignmentsAfter_append free before []
    rw [List.append_nil] at none
    rw [List.nil_append, none]
    rfl
  | cons c s ih =>
    have next : (s ++ u).head?.any isEquals = s.head?.any isEquals := by
      cases s with
      | nil =>
        cases u with
        | nil => rfl
        | cons d u => exact free d List.mem_cons_self
      | cons d s => rfl
    rw [List.cons_append, assignmentsAfter, assignmentsAfter, next, ih]
    split <;> rfl

section

variable {u : Text} (free : ∀ c ∈ u, isEquals c = false)

include free

theorem LeftsApart.append_right {s : Text} (h : LeftsApart s) :
    LeftsApart (s ++ u) := by
  intro a ha
  rw [assignments, assignmentsAfter_append_right free] at ha
  obtain ⟨b, hb, rfl⟩ := List.mem_map.1 ha
  exact h b hb

theorem name?_classify_append_right (v : Vocabulary) (joined : Bool)
    (s : Text) :
    (v.classify joined (s ++ u)).name? = (v.classify joined s).name? := by
  ext name
  rw [(classify_grammatical v joined s).name,
    (classify_grammatical v joined (s ++ u)).name]
  simp only [Vocabulary.names_iff]
  rw [assignments, assignmentsAfter_append_right free, ← assignments]
  generalize assignments s = as
  rcases as with _ | ⟨⟨left, sign, right⟩, _ | ⟨a, as⟩⟩ <;> simp

end

theorem plain_ending (e : Ending) :
    ∀ c ∈ e.text, isEquals c = false ∧ beginsComment c = false ∧ c ≠ '\'' := by
  cases e <;> simp [Ending.text, isEquals, beginsComment]

theorem segments_cons {c : Char} (h : beginsComment c = false) (s : Text) :
    segments (c :: s) =
      (c :: (Cut.ofText s).first) :: (Cut.ofText s).others := by
  rw [segments, Cut.ofText_cons h]

theorem segments_of_comment {c : Char} {s : Text} (h : beginsComment c = true)
    (noMark : ¬segmentMark <+: c :: s) : segments (c :: s) = [[]] := by
  have begins : (c :: s).head?.any beginsComment = true := h
  rw [segments, Cut.ofText_eq_self_iff.2 (.inr ⟨begins, noMark⟩)]

/-- A mark ends in a quote, which no ending holds. -/
theorem not_mark_append_ending {s : Text} (h : ¬segmentMark <+: s)
    (e : Ending) :
    ¬segmentMark <+: s ++ e.text := by
  rintro ⟨rest, join⟩
  rcases List.append_eq_append_iff.1 join with ⟨m, hs, -⟩ | ⟨m, hmark, he⟩
  · exact h ⟨m, hs.symm⟩
  · cases hm : m.getLast? with
    | none =>
      rw [List.getLast?_eq_none_iff.1 hm, List.append_nil] at hmark
      exact h (hmark ▸ List.prefix_refl _)
    | some d =>
      have last := congrArg List.getLast? hmark
      rw [List.getLast?_append, hm] at last
      obtain rfl : '\'' = d := Option.some.inj last
      have quote : '\'' ∈ e.text := by
        rw [he]
        exact List.mem_append_left _ (List.mem_of_mem_getLast? hm)
      exact (plain_ending e _ quote).2.2 rfl

/-- The ending of a row is kept behind the last segment or in the comment. -/
theorem segments_append_ending (s : Text) (e : Ending) :
    List.Forall₂ (fun x y => y = x ∨ y = x ++ e.text) (segments s)
      (segments (s ++ e.text)) := by
  have plain : Uncommented e.text := fun c hc => (plain_ending e c hc).2.1
  fun_induction Cut.ofText s with
  | case1 =>
    have all : Cut.ofText e.text = ⟨e.text, [], []⟩ := by
      have front := Cut.ofText_append plain []
      simpa [Cut.ofText] using front
    rw [List.nil_append, segments, segments, all]
    exact .cons (.inr rfl) .nil
  | case2 s rest ih => exact .cons (.inl rfl) ih
  | case3 c s noMark comment =>
    have apart : ¬segmentMark <+: c :: s := by
      rintro ⟨rest, join⟩
      obtain ⟨rfl, rfl⟩ := List.cons.inj join
      exact noMark rest rfl rfl
    have apart' : ¬segmentMark <+: c :: (s ++ e.text) :=
      not_mark_append_ending apart e
    rw [List.cons_append, segments_of_comment comment apart,
      segments_of_comment comment apart']
    exact .cons (.inl rfl) .nil
  | case4 c s noMark code rest ih =>
    have code : beginsComment c = false := by simpa using code
    rw [List.cons_append, segments_cons code, segments_cons code]
    rw [segments, segments] at ih
    cases ih with
    | cons first others =>
      refine .cons ?_ others
      rcases first with first | first
      · exact .inl (by rw [first])
      · exact .inr (by rw [first, List.cons_append])

theorem lineNames_append_ending (v : Vocabulary) (s : Text) (e : Ending) :
    lineNames v (s ++ e.text) = lineNames v s := by
  apply lineNames_congr
  refine (segments_append_ending s e).imp fun x y same joined => ?_
  rcases same with rfl | rfl
  · rfl
  · exact name?_classify_append_right
      (fun c hc => (plain_ending e c hc).1) v joined x

theorem leftsApart_append_ending {s : Text} (h : ∀ x ∈ segments s, LeftsApart x)
    (e : Ending) :
    ∀ y ∈ segments (s ++ e.text), LeftsApart y := by
  refine forall_mem_right (segments_append_ending s e) h
    fun x y apart same => ?_
  rcases same with rfl | rfl
  · exact apart
  · exact apart.append_right fun c hc => (plain_ending e c hc).1

/-! ## Rows -/

/-- A carriage return that does not stand at the end before an expansion does
not stand there after it. -/
theorem Expands.last (inert : ∀ a ∈ aliases, a.Inert) {y : Text}
    (h : Expands aliases before s t)
    (ends : before.head? ≠ some '\r' → y.head? ≠ some '\r') :
    (s.reverse ++ before).head? ≠ some '\r' →
      (t.reverse ++ y).head? ≠ some '\r' := by
  induction h generalizing y with
  | nil => exact ends
  | @keep before s t c rest ih => simpa using @ih (c :: y) (by simp)
  | @expand before s t a known place rest ih =>
    have open' : before.head? ≠ some '\r' := by
      intro last
      have endsBefore := head?_of_unitCanFollow place
      rw [last] at endsBefore
      exact absurd endsBefore (by decide)
    have departed : (a.expansion.reverse ++ y).head? ≠ some '\r' := by
      cases hrev : a.expansion.reverse with
      | nil => exact ends open'
      | cons c u =>
        rintro ⟨rfl⟩
        have mem : '\r' ∈ a.expansion := List.mem_reverse.1 (by simp [hrev])
        exact ((inert a known).expansion _ mem).2.2.2 rfl
    simpa using @ih (a.expansion.reverse ++ y) fun _ => departed

theorem Expands.nil_eq (h : Expands aliases before [] t)
    (ne : ∀ a ∈ aliases, a.name ≠ []) : t = [] := by
  generalize hs : [] = s at h
  cases h with
  | nil => rfl
  | keep => cases hs
  | expand known _ _ =>
    exact absurd (List.append_eq_nil_iff.1 hs.symm).1 (ne _ known)

/-- The ending of a row is kept. -/
theorem Expands.of_append_ending (inert : ∀ a ∈ aliases, a.Inert)
    (ne : ∀ a ∈ aliases, a.name ≠ []) {e : Ending}
    (h : Expands aliases before (s ++ e.text) t) :
    ∃ t', t = t' ++ e.text ∧ Expands aliases before s t' := by
  have feed : ∀ a ∈ aliases, '\n' ∉ a.name :=
    fun a ha mem => ((inert a ha).name _ mem).2.2.1 rfl
  have return' : ∀ a ∈ aliases, '\r' ∉ a.name :=
    fun a ha mem => ((inert a ha).name _ mem).2.2.2 rfl
  cases e with
  | feed =>
    obtain ⟨t', y, rfl, front, back⟩ := h.of_append feed
    exact ⟨t', by rw [back.nil_eq ne]; rfl, front⟩
  | returnFeed =>
    obtain ⟨t', y, rfl, front, back⟩ := h.of_append return'
    obtain ⟨y, rfl, last⟩ :=
      back.cons_of_not_place (not_unitCanFollow_of_head (by decide) _)
    exact ⟨t', by rw [last.nil_eq ne]; rfl, front⟩
  | «open» =>
    rw [Ending.text, List.append_nil] at h
    exact ⟨t, by simp [Ending.text], h⟩

/-- Of a row, what stands in front of its comment is expanded, and its ending is
kept. -/
theorem exists_content (inert : ∀ a ∈ aliases, a.Inert)
    (ne : ∀ a ∈ aliases, a.name ≠ []) {v : Vocabulary} {r : Row}
    (h : Expands aliases [] (Line.read v r.text).code t) :
    ∃ code code' rest, r.content = code ++ rest ∧
      Expands aliases [] code code' ∧
      t ++ (Line.read v r.text).comment = code' ++ rest ++ r.ending.text := by
  have parts : (Line.read v r.text).code ++ (Line.read v r.text).comment =
      r.content ++ r.ending.text := Line.text_read v r.text
  have begins := ((Cut.ofText_eq_iff.1 (rfl : Cut.ofText r.text = _)).comment)
  have comment_eq :
      (Line.read v r.text).comment = (Cut.ofText r.text).comment := rfl
  rw [← comment_eq] at begins
  generalize (Line.read v r.text).code = code at parts h
  generalize (Line.read v r.text).comment = comment at parts begins
  rcases begins with rfl | ⟨begins, -⟩
  · -- Without a comment the ending belongs to the last segment.
    rw [List.append_nil] at parts
    subst parts
    obtain ⟨code', rfl, expands⟩ := h.of_append_ending inert ne
    exact ⟨r.content, code', [], by simp, expands, by simp⟩
  · rcases List.append_eq_append_iff.1 parts with
      ⟨rest, hcontent, hcomment⟩ | ⟨rest, -, hending⟩
    · exact ⟨code, t, rest, hcontent, h, by simp [hcomment]⟩
    · exfalso
      cases comment with
      | nil => cases begins
      | cons c comment =>
        have plain := (plain_ending r.ending c (by simp [hending])).2.1
        rw [List.head?_cons, Option.any_some, plain] at begins
        cases begins

/-- The row of a line with its aliases expanded has the ending of the line. -/
theorem exists_row (inert : ∀ a ∈ aliases, a.Inert)
    (ne : ∀ a ∈ aliases, a.name ≠ []) {v : Vocabulary} {r : Row}
    (sound : r.Sound) (h : Expands aliases [] (Line.read v r.text).code t) :
    ∃ content, t ++ (Line.read v r.text).comment = content ++ r.ending.text ∧
      Row.Sound ⟨content, r.ending⟩ ∧ (r.content ≠ [] → content ≠ []) := by
  obtain ⟨code, code', rest, split, expands, join⟩ := exists_content inert ne h
  refine ⟨code' ++ rest, join, ⟨?_, ?_⟩, ?_⟩
  · intro feed
    apply sound.feed
    rw [split, List.mem_append]
    rcases List.mem_append.1 feed with feed | feed
    · rcases expands.mem feed with feed | ⟨a, known, feed⟩
      · exact .inl feed
      · exact absurd rfl ((inert a known).expansion _ feed).2.2.1
    · exact .inr feed
  · intro hending last
    have last' := sound.last hending
    rw [split] at last'
    cases hrest : rest.getLast? with
    | some d => simp_all [List.getLast?_append]
    | none =>
      rw [List.getLast?_eq_none_iff.1 hrest, List.append_nil] at last last'
      have kept := @Expands.last _ _ _ _ inert [] expands (fun h => h)
      rw [List.append_nil, List.append_nil, List.head?_reverse,
        List.head?_reverse] at kept
      exact kept last' last
  · intro some none
    obtain ⟨rfl, rfl⟩ := List.append_eq_nil_iff.1 none
    rw [List.append_nil] at split
    obtain ⟨c, code, rfl⟩ := List.exists_cons_of_ne_nil (split ▸ some)
    obtain ⟨t, none, -⟩ := expands.cons_of_not_place (by decide)
    cases none

/-- The lines of rows, with aliases expanded in front of their comments, are the
lines of rows with the same names on their left sides. -/
theorem exists_rows (inert : ∀ a ∈ aliases, a.Inert)
    (ne : ∀ a ∈ aliases, a.name ≠ []) (v : Vocabulary) {rs : List Row}
    (h : AreRows rs)
    (apart : ∀ r ∈ rs, ∀ x ∈ segments r.content, LeftsApart x) :
    ∃ rs', AreRows rs' ∧
      rs'.flatMap Row.text = rs.flatMap (fun r =>
        expandAfter aliases [] 0 (Line.read v r.text).code ++
          (Line.read v r.text).comment) ∧
      rs'.map (fun r => lineNames v r.content) =
        rs.map fun r => lineNames v r.content := by
  -- One row: its line keeps its ending and its names.
  have row {r : Row} (sound : r.Sound)
      (lefts : ∀ x ∈ segments r.content, LeftsApart x) :
      ∃ content, Row.Sound ⟨content, r.ending⟩ ∧
        (r.content ≠ [] → content ≠ []) ∧
        Row.text ⟨content, r.ending⟩ =
          expandAfter aliases [] 0 (Line.read v r.text).code ++
            (Line.read v r.text).comment ∧
        lineNames v content = lineNames v r.content := by
    have expands := expands_expandAfter ne [] (Line.read v r.text).code
    obtain ⟨content, join, sound', some⟩ := exists_row inert ne sound expands
    refine ⟨content, sound', some, join.symm, ?_⟩
    have names :=
      expands.lineNames_eq inert (leftsApart_append_ending lefts r.ending)
    rwa [← Row.text, join, lineNames_append_ending, Row.text,
      lineNames_append_ending] at names
  induction h with
  | nil => exact ⟨[], .nil, rfl, rfl⟩
  | @last r sound ending some =>
    obtain ⟨content, sound', some', text, names⟩ :=
      row sound (apart r (by simp))
    exact ⟨[⟨content, r.ending⟩], .last sound' ending (some' some),
      by simp [text], by simp [names]⟩
  | @cons r rs sound ending rest ih =>
    obtain ⟨content, sound', -, text, names⟩ :=
      row sound (apart r List.mem_cons_self)
    obtain ⟨rs', rows, texts, others⟩ :=
      ih fun r' hr' => apart r' (List.mem_cons_of_mem r hr')
    exact ⟨⟨content, r.ending⟩ :: rs', .cons sound' ending rows,
      by simp [text, texts], by simp [names, others]⟩

/-! ## Sources -/

/-- The names on the left sides of a source. -/
def names (v : Vocabulary) (source : Text) : List Text :=
  (lines source).flatMap (lineNames v)

/-- Expanding aliases changes no name on a left side, when no alias touches what
lines are cut at and no prime mark stands right before a digit on a left
side. -/
theorem names_expand (v : Vocabulary) {aliases : List UnitAlias}
    (inert : ∀ a ∈ aliases, a.Inert) {source : Text}
    (apart : ∀ s ∈ lines source, ∀ x ∈ segments s, LeftsApart x) :
    names v (expand v aliases source) = names v source := by
  dsimp only [expand]
  split
  · rfl
  have known {a : UnitAlias} {declared : List Text}
      (ha : a ∈ enabled aliases declared) :
      a ∈ aliases ∧ a.name ≠ [] := by
    rw [enabled, List.mem_mergeSort, List.mem_filter, Bool.and_eq_true,
      Bool.not_eq_true', List.isEmpty_eq_false_iff] at ha
    exact ⟨ha.1, ha.2.1⟩
  have lefts : ∀ r ∈ rows source, ∀ x ∈ segments r.content, LeftsApart x := by
    intro r hr
    exact apart r.content (List.mem_map_of_mem hr)
  obtain ⟨rs, are, texts, same⟩ :=
    exists_rows (fun a ha => inert a (known ha).1)
      (fun a ha => (known ha).2) v (areRows_rows source) lefts
  rw [List.flatMap_map, ← texts, names, names, lines, lines,
    rows_flatMap_text are, List.flatMap_map, List.flatMap_map, List.flatMap_def,
    List.flatMap_def, same]

/-- A joined input and a bare number with their units written out, beside a name
with a prime mark. -/
theorem names_expand_sample :
    names .builtIn
      (expand .builtIn defaults "x′ = ?\x7b5\x7dkgf';'b2 = 3 tf #gf\nc = x′5".toList) =
      [['x', '′'], ['b', '2'], ['c']] := by
  have inert : ∀ a ∈ defaults, a.Inert := by
    intro a ha
    simp only [defaults, List.mem_cons, List.not_mem_nil, or_false] at ha
    rcases ha with rfl | rfl | rfl <;>
      constructor <;> simp [comparesBefore, isEquals, beginsComment]
  have apart :
      ∀ s ∈ lines "x′ = ?\x7b5\x7dkgf';'b2 = 3 tf #gf\nc = x′5".toList,
        ∀ x ∈ segments s, LeftsApart x := by
    have checked :
        ((lines "x′ = ?\x7b5\x7dkgf';'b2 = 3 tf #gf\nc = x′5".toList).all fun s =>
        (segments s).all fun x => (assignments x).all fun a =>
          primesApart a.left) = true := by
      decide +kernel
    simpa [LeftsApart] using checked
  rw [names_expand .builtIn inert apart]
  decide +kernel

/-- The prime mark goes on with a name, and the number behind it is taken for
one of its own. -/
theorem names_expand_behind_prime :
    names .builtIn (expand .builtIn defaults "a′5kgf = 3".toList) ≠
      names .builtIn "a′5kgf = 3".toList := by
  have ordered : enabled defaults ["a′5kgf".toList] =
      [⟨"kgf".toList, "(9.80665*N)".toList⟩,
      ⟨"gf".toList, "(0.00980665*N)".toList⟩,
      ⟨"tf".toList, "(9806.65*N)".toList⟩] := by cbv
  have declared :
      ((rows "a′5kgf = 3".toList).map fun r =>
        Line.read .builtIn r.text).flatMap
      (fun l => l.statements.filterMap Statement.name?) =
        ["a′5kgf".toList] := by decide +kernel
  have expanded : expand .builtIn defaults "a′5kgf = 3".toList =
      "a′5(9.80665*N) = 3".toList := by
    dsimp only [expand]
    rw [declared, ordered]
    decide +kernel
  rw [expanded]
  decide +kernel

end Worksheet.UnitAlias

import Mathlib.Data.List.Basic
import Worksheet.Proofs.Result.Blocks

/-!
# Value and unit are read from one place

The value of a block is read behind the last equals sign of its text, the unit
behind the last equals sign of its markup. The markup found there means the text
found there, unless a later equals sign is written as an entity, or the row of
the markup ends where the row of the text does not: at a line feed inside a tag,
or at a line break that does not stand as such in the markup.
-/

namespace Worksheet

open Text Markup

/-! ## The lines of a block -/

theorem ofLines_map_ofRun {name : Text} {runs : List (List Token)}
    (shown : ∀ run ∈ runs, (RenderedLine.ofRun run).text ≠ []) :
    ResultBlock.ofLines name (runs.map RenderedLine.ofRun) =
      ⟨name, joinLines (runs.map fun run => (RenderedLine.ofRun run).text),
        unlex (joinRuns runs)⟩ := by
  rw [ofLines_eq (by simpa using shown), List.map_map, List.map_map,
    unlex_joinRuns]
  rfl

/-- The lines of a block are runs of tokens of the output, which are read again
when they are joined. -/
theorem exists_runs_of_group {output : Text} {g : Text × List RenderedLine}
    (hg : g ∈ (groupLines (textLines output)).2) :
    ∃ runs, LexedLines runs ∧ (∀ run ∈ runs, IsLine run) ∧
      g.2 = runs.map RenderedLine.ofRun ∧
      ∀ run ∈ runs, (RenderedLine.ofRun run).text ≠ [] := by
  obtain ⟨all, lines, lexed, eq⟩ := exists_renderedLines output
  have inside : g.2.Sublist (textLines output) := by
    rw [(grouped_groupLines (textLines output)).all, List.flatMap_def]
    exact (List.sublist_flatten_of_mem (List.mem_map.2 ⟨g, hg, rfl⟩)).trans
      (List.sublist_append_right _ _)
  have sublist := inside.trans List.filter_sublist
  rw [eq] at sublist
  obtain ⟨runs, hruns, shown⟩ := List.sublist_map_iff.1 sublist
  refine ⟨runs, lexed.sublist hruns,
    fun run hrun => (lines.isLine run (hruns.subset hrun)).1, shown, ?_⟩
  intro run hrun
  apply ne_nil_of_mem_textLines (inside.subset _)
  rw [shown]
  exact List.mem_map.2 ⟨run, hrun, rfl⟩

/-- A block is made of lines of tokens of the output, which are read again in
its markup. -/
theorem exists_lines_of_block {output : Text} {b : ResultBlock}
    (hb : b ∈ resultBlocks output) :
    ∃ runs, LexedLines runs ∧ (∀ run ∈ runs, IsLine run) ∧
      b.text = joinLines (runs.map fun run => (RenderedLine.ofRun run).text) ∧
      b.markup = unlex (joinRuns runs) := by
  obtain ⟨g, hg, hb⟩ := List.mem_map.1 hb
  obtain ⟨runs, lexed, lines, eq, shown⟩ := exists_runs_of_group hg
  have made : b = ResultBlock.ofLines g.1 g.2 := hb.symm
  rw [eq, ofLines_map_ofRun shown] at made
  exact ⟨runs, lexed, lines, by rw [made], by rw [made]⟩

/-! ## The last equals sign of the markup -/

theorem plainEquals_ne_of_afterEquals?_none {ts : List Token}
    (h : afterEquals? ts = none) :
    ∀ c, .char c ∈ ts → plainEquals c ≠ '=' := by
  induction ts with
  | nil => simp
  | cons t ts ih =>
    rw [afterEquals?] at h
    split at h
    · cases h
    · next none =>
      split at h
      · cases h
      · next other =>
        intro c hc sign
        rcases List.mem_cons.1 hc with rfl | hc
        · exact other (by simpa using plainEquals_eq_iff.1 sign)
        · exact ih none c hc sign

theorem exists_of_afterEquals? {ts rest : List Token}
    (h : afterEquals? ts = some rest) :
    ∃ front sign, ts = front ++ .char sign :: rest ∧ plainEquals sign = '=' ∧
      ∀ c, .char c ∈ rest → plainEquals c ≠ '=' := by
  induction ts with
  | nil => cases h
  | cons t ts ih =>
    rw [afterEquals?] at h
    split at h
    · next found =>
      cases h
      obtain ⟨front, sign, rfl, hsign, last⟩ := ih found
      exact ⟨t :: front, sign, rfl, hsign, last⟩
    · next none =>
      have last := plainEquals_ne_of_afterEquals?_none none
      split at h
      · next hsign =>
        cases h
        rcases hsign with rfl | rfl
        · exact ⟨[], '=', rfl, rfl, last⟩
        · exact ⟨[], '＝', rfl, rfl, last⟩
      · cases h

theorem flatMap_feed_eq_cons_joinRuns (run : List Token)
    (runs : List (List Token)) :
    (run :: runs).flatMap (.char '\n' :: ·) =
      .char '\n' :: joinRuns (run :: runs) := by
  rw [joinRuns, intercalate_cons, List.flatMap_cons, List.cons_append]

/-- A place in joined lines is a place in one of the lines. -/
theorem joinRuns_cut {runs : List (List Token)} {front rest : List Token}
    {t : Token} (h : joinRuns runs = front ++ t :: rest) (ht : t ≠ .char '\n') :
    ∃ above front' post below, runs = above ++ (front' ++ t :: post) :: below ∧
      rest = post ++ below.flatMap (.char '\n' :: ·) := by
  have cut {runs : List (List Token)} {front : List Token}
      (h : runs.flatMap (.char '\n' :: ·) = front ++ t :: rest) :
      ∃ above front' post below,
        runs = above ++ (front' ++ t :: post) :: below ∧
        rest = post ++ below.flatMap (.char '\n' :: ·) := by
    induction runs generalizing front with
    | nil => simp at h
    | cons run runs ih =>
      have later {front : List Token}
          (h : runs.flatMap (.char '\n' :: ·) = front ++ t :: rest) :
          ∃ above front' post below,
            run :: runs = above ++ (front' ++ t :: post) :: below ∧
            rest = post ++ below.flatMap (.char '\n' :: ·) := by
        obtain ⟨above, front', post, below, rfl, hrest⟩ := ih h
        exact ⟨run :: above, front', post, below, rfl, hrest⟩
      rw [List.flatMap_cons, List.cons_append] at h
      cases front with
      | nil => exact absurd (List.cons.inj h).1.symm ht
      | cons d front =>
        rcases List.append_eq_append_iff.1 (List.cons.inj h).2 with
          ⟨m, -, hlater⟩ | ⟨m, hrun, hlater⟩
        · exact later hlater
        · cases m with
          | nil => exact @later [] hlater.symm
          | cons u m =>
            obtain ⟨rfl, rfl⟩ := List.cons.inj hlater
            exact ⟨[], front, m, runs, by rw [hrun]; rfl, rfl⟩
  cases runs with
  | nil => simp [joinRuns] at h
  | cons run runs =>
    refine @cut _ (.char '\n' :: front) ?_
    rw [flatMap_feed_eq_cons_joinRuns, h, List.cons_append]

/-! ## The tail of the text -/

theorem mem_meaning_of_tag {t : Tag} {c : Char} (h : c ∈ t.meaning) :
    c = '\n' ∨ c = '^' ∨ c = '_' := by
  unfold Tag.meaning at h
  split at h
  · exact .inl (List.mem_singleton.1 h)
  split at h
  · exact .inr (.inl (List.mem_singleton.1 h))
  split at h
  · exact .inr (.inr (List.mem_singleton.1 h))
  · cases h

/-- Without characters and entities for it, tokens mean no equals sign. -/
theorem plainEquals_ne_of_mem_meanings {ts : List Token}
    (chars : ∀ c, .char c ∈ ts → plainEquals c ≠ '=')
    (entities : ∀ e, .entity e ∈ ts → e.character ≠ '=' ∧ e.character ≠ '＝') :
    ∀ c ∈ meanings ts, plainEquals c ≠ '=' := by
  intro c hc
  obtain ⟨t, ht, hc⟩ := List.mem_flatMap.1 hc
  cases t with
  | tag t => rcases mem_meaning_of_tag hc with rfl | rfl | rfl <;> decide
  | entity e =>
    rw [List.mem_singleton.1 hc, Ne, plainEquals_eq_iff, not_or]
    exact entities e ht
  | char d =>
    rw [Token.meaning, List.mem_singleton] at hc
    split at hc
    · subst hc
      decide
    · subst hc
      exact chars _ ht

theorem takeWhile_unfed {s : Text} (h : '\n' ∉ s) :
    s.takeWhile (· != '\n') = s := by
  rw [← List.append_nil s, List.takeWhile_append_of_pos (bne_of_not_mem h),
    List.takeWhile_nil]

theorem takeWhile_append_lines (s : Text) (lines : List Text) :
    (s ++ lines.flatMap ('\n' :: ·)).takeWhile (· != '\n') =
      s.takeWhile (· != '\n') := by
  induction s with
  | nil => cases lines <;> rfl
  | cons c s ih =>
    rw [List.cons_append, List.takeWhile_cons, List.takeWhile_cons, ih]

/-- The tail of joined lines is what the last line with an equals sign shows
behind it, to the end of its first row. -/
theorem tail_of_lines {b : ResultBlock} {above below : List (List Token)}
    {front post : List Token} {sign : Char}
    (text : b.text = joinLines
      ((above ++ (front ++ .char sign :: post) :: below).map fun run =>
      (RenderedLine.ofRun run).text))
    (hsign : plainEquals sign = '=')
    (last : ∀ run ∈ post :: below, ∀ c ∈ meanings run, plainEquals c ≠ '=') :
    b.tail = (trimEnd (Text.normalize (meanings post))).takeWhile
      (· != '\n') := by
  have shownSign : isBlank sign = false ∧
      (Token.char sign).meaning = [sign] := by
    rcases plainEquals_eq_iff.1 hsign with rfl | rfl <;> decide +kernel
  have line : (RenderedLine.ofRun (front ++ .char sign :: post)).text =
      trimStart (Text.normalize (meanings front)) ++
        '=' :: trimEnd (Text.normalize (meanings post)) := by
    rw [RenderedLine.ofRun, meanings_append, meanings_cons, shownSign.2,
      List.singleton_append, Text.normalize,
      normalizeFrom_append_mark shownSign.1, hsign,
      trim_append_cons (by decide)]
    rfl
  have unsigned {run : List Token} (hrun : run ∈ post :: below) :
      '=' ∉ Text.normalize (meanings run) := by
    intro mem
    obtain ⟨c, hc, sign⟩ := exists_of_equals_mem mem
    exact last run hrun c hc sign
  obtain ⟨lead, join⟩ := joinLines_append_cons
    (above.map fun run => (RenderedLine.ofRun run).text)
    (RenderedLine.ofRun (front ++ .char sign :: post)).text
    (below.map fun run => (RenderedLine.ofRun run).text)
  -- No equals sign follows, neither on the line nor on the lines below.
  have alone : '=' ∉ trimEnd (Text.normalize (meanings post)) ++
      (below.map fun run => (RenderedLine.ofRun run).text).flatMap
        ('\n' :: ·) := by
    intro mem
    rcases List.mem_append.1 mem with mem | mem
    · exact unsigned List.mem_cons_self ((trimEnd_isPrefix _).subset mem)
    · obtain ⟨t, ht, mem⟩ := List.mem_flatMap.1 mem
      obtain ⟨run, hrun, rfl⟩ := List.mem_map.1 ht
      have mem := (List.mem_cons.1 mem).resolve_left (by decide)
      exact unsigned (List.mem_cons_of_mem post hrun)
        ((trimStart_isSuffix _).subset ((trimEnd_isPrefix _).subset mem))
  have split := afterLast?_append alone
    (lead ++ trimStart (Text.normalize (meanings front)))
  rw [ResultBlock.tail, text, List.map_append, List.map_cons, join, line]
  simp only [List.append_assoc, List.cons_append] at split ⊢
  rw [split]
  exact takeWhile_append_lines _ _

/-! ## The tail of the markup -/

theorem takeWhile_append_runs {post : List Token} (unbroken : .char '\n' ∉ post)
    (below : List (List Token)) :
    (post ++ below.flatMap (.char '\n' :: ·)).takeWhile
      (· ≠ .char '\n') = post := by
  have all : ∀ t ∈ post, decide (t ≠ .char '\n') = true := by
    intro t ht
    rw [decide_eq_true_eq]
    rintro rfl
    exact unbroken ht
  rw [List.takeWhile_append_of_pos all]
  cases below <;> simp

/-- The tail of the markup is the row behind the sign when no token of the row
holds a line feed. -/
theorem tail_of_markup {markup : Text} {post : List Token}
    {below : List (List Token)}
    (after : afterEquals? (tokens markup) =
      some (post ++ below.flatMap (.char '\n' :: ·)))
    (row : ∀ t ∈ post, '\n' ∉ t.text) : Markup.tail markup = unlex post := by
  have written (below : List (List Token)) :
      unlex (below.flatMap (.char '\n' :: ·)) =
        (below.map unlex).flatMap ('\n' :: ·) := by
    induction below with
    | nil => rfl
    | cons run below ih =>
      rw [List.flatMap_cons, unlex_append, ih]
      rfl
  have unfed : '\n' ∉ unlex post := by
    intro feed
    obtain ⟨t, ht, feed⟩ := List.mem_flatMap.1 feed
    exact row t ht feed
  simp only [Markup.tail, after]
  rw [unlex_append, written, takeWhile_append_lines, takeWhile_unfed unfed]

/-- In a block whose markup has an equals sign, none of the later ones written
as an entity and no token of its row hiding or holding a line break, the tail of
the markup means the tail of the text. -/
theorem tail_markup_denotes_tail {output : Text} {b : ResultBlock}
    {rest : List Token} (hb : b ∈ resultBlocks output)
    (after : afterEquals? (tokens b.markup) = some rest)
    (signs : ∀ e, .entity e ∈ rest → e.character ≠ '=' ∧ e.character ≠ '＝')
    (row : ∀ t ∈ rest.takeWhile (· ≠ .char '\n'), t.hidesBreak = false ∧
      '\n' ∉ t.text) :
    trim (Text.normalize (meaning (Markup.tail b.markup))) = trim b.tail := by
  obtain ⟨runs, lexed, lines, text, markup⟩ := exists_lines_of_block hb
  have toks : tokens b.markup = joinRuns runs := by
    rw [markup, lexed.lexed.tokens_unlex]
  obtain ⟨front, sign, split, hsign, chars⟩ := exists_of_afterEquals? after
  have feed : Token.char sign ≠ .char '\n' := by
    rintro ⟨rfl⟩
    exact absurd hsign (by decide)
  have join := toks.symm.trans split
  obtain ⟨above, front', post, below, rfl, rfl⟩ := joinRuns_cut join feed
  have place :
      front' ++ .char sign :: post ∈ above ++
        (front' ++ .char sign :: post) :: below := by
    simp
  have line : IsLine post :=
    (lines _ place).suffix
      ((List.suffix_cons _ post).trans (List.suffix_append front' _))
  have unbroken : .char '\n' ∉ post :=
    fun mem => absurd (line.unbroken _ mem) (by decide)
  rw [takeWhile_append_runs unbroken] at row
  have reread : Lexed post (unlex (below.flatMap (.char '\n' :: ·)) ++ []) := by
    have whole := lexed.lexed
    rw [join] at whole
    cases whole.of_append.2 with
    | cons _ later => exact later.of_append.1
  have last : ∀ run ∈ post :: below, ∀ c ∈ meanings run,
      plainEquals c ≠ '=' := by
    intro run hrun
    have inside {t : Token} (ht : t ∈ run) :
        t ∈ post ++ below.flatMap (.char '\n' :: ·) := by
      rcases List.mem_cons.1 hrun with rfl | hrun
      · exact List.mem_append_left _ ht
      · exact List.mem_append_right _
          (List.mem_flatMap.2 ⟨run, hrun, List.mem_cons_of_mem _ ht⟩)
    exact plainEquals_ne_of_mem_meanings (fun c hc => chars c (inside hc))
      fun e he => signs e (inside he)
  obtain ⟨shown, margin, plain, blank, normal⟩ :=
    line.normalize_meanings fun t ht => (row t ht).1
  have plain' : '\n' ∉ trimEnd shown :=
    fun feed => plain ((trimEnd_isPrefix shown).subset feed)
  rw [tail_of_markup after fun t ht => (row t ht).2, reread.meaning_unlex,
    ← meanings, tail_of_lines text hsign last, normal,
    trimEnd_append_of_isAllBlank blank, trim_append_of_isAllBlank blank,
    takeWhile_unfed plain']
  have join := dropEndWhile_append_takeEndWhile isBlank shown
  conv_lhs =>
    rw [← join, trim_append_of_isAllBlank (isAllBlank_takeEndWhile shown)]
  rfl

/-- A unit in italics behind an entity, on the second line of a block. -/
theorem tail_markup_denotes_tail_sample :
    ∃ b ∈ resultBlocks "y = 2·x<br>= 2.5&nbsp;<i>kN</i><br>z = 1".toList,
      b.name = ['y'] ∧
      trim (Text.normalize (meaning (Markup.tail b.markup))) = trim b.tail := by
  have mem :
      (⟨['y'], "y = 2·x\n= 2.5 kN".toList,
        "y = 2·x<br>\n= 2.5&nbsp;<i>kN</i><br>".toList⟩ :
        ResultBlock) ∈
        resultBlocks "y = 2·x<br>= 2.5&nbsp;<i>kN</i><br>z = 1".toList := by
    decide +kernel
  have after :
      afterEquals? (tokens "y = 2·x<br>\n= 2.5&nbsp;<i>kN</i><br>".toList) =
      some [.char ' ', .char '2', .char '.', .char '5',
        .entity ⟨"nbsp".toList, '\u00a0'⟩, .tag ⟨"i".toList⟩, .char 'k',
        .char 'N', .tag ⟨"/i".toList⟩, .tag ⟨"br".toList⟩] := by
    decide +kernel
  exact ⟨_, mem, rfl, tail_markup_denotes_tail mem after (by simp)
    (by decide +kernel)⟩

/-- The line feed inside the tag ends the row of the markup, not the row of the
text. -/
theorem tail_markup_cut_in_tag :
    ¬ ∀ b ∈ resultBlocks
      ("q = 2.4 <span\nclass=\"dvc\"><i>kN</i><span class=\"dvl\"></span><i>m</i>" ++
        "</span>").toList,
      trim (Text.normalize (meaning (Markup.tail b.markup))) = trim b.tail := by
  decide +kernel

end Worksheet

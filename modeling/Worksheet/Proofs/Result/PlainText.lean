import Mathlib.Data.List.Basic
import Worksheet.Proofs.Result.Opening
import Worksheet.Proofs.Result.Scalar

/-!
# Extraction from plain lines

In an output of plain lines the block of a name is its last opening line with
the lines up to the next opening line. The number that was printed behind the
last equals sign of the block, with a unit or without one, is what extraction
finds.
-/

namespace Worksheet

open Text Markup

/-! ## Groups of lines -/

section

variable {lines before rest after : List RenderedLine} {opening : RenderedLine}
  {name : Text}

theorem map_fst_groupLines (lines : List RenderedLine) :
    (groupLines lines).2.map Prod.fst =
      lines.filterMap (openingName? ·.text) := by
  induction lines with
  | nil => rfl
  | cons line lines ih =>
    rw [groupLines]
    cases h : openingName? line.text with
    | none => simp [h, ih]
    | some name => simp [h, ih]

/-- Lines that open nothing stay in front of the next opening line. -/
theorem groupLines_append (continues : ∀ l ∈ rest, openingName? l.text = none)
    (stops : ∀ l, after.head? = some l → (openingName? l.text).isSome) :
    groupLines (rest ++ after) = (rest, (groupLines after).2) := by
  induction rest with
  | nil =>
    cases after with
    | nil => rfl
    | cons l after =>
      obtain ⟨name, opens⟩ := Option.isSome_iff_exists.1 (stops l rfl)
      simp [groupLines, opens]
  | cons line rest ih =>
    have none := continues line List.mem_cons_self
    rw [List.cons_append, groupLines,
      ih fun l hl => continues l (List.mem_cons_of_mem line hl)]
    simp [none]

theorem exists_groupLines_append (before : List RenderedLine)
    (opens : openingName? opening.text = some name) (more : List RenderedLine) :
    ∃ groups, (groupLines (before ++ opening :: more)).2 =
      groups ++ (name, opening :: (groupLines more).1) ::
        (groupLines more).2 := by
  induction before with
  | nil => exact ⟨[], by simp [groupLines, opens]⟩
  | cons line before ih =>
    obtain ⟨groups, split⟩ := ih
    rw [List.cons_append, groupLines]
    cases h : openingName? line.text with
    | none => exact ⟨groups, split⟩
    | some other =>
      exact ⟨(other, line :: (groupLines (before ++ opening :: more)).1) ::
        groups, by simp [split]⟩

theorem name_ofLines (name : Text) (lines : List RenderedLine) :
    (ResultBlock.ofLines name lines).name = name := by
  have keep (b : ResultBlock) :
      (lines.foldl ResultBlock.addLine b).name = b.name := by
    induction lines generalizing b with
    | nil => rfl
    | cons line lines ih => exact ih (b.addLine line)
  exact keep _

/-- The blocks of lines that do not open a name. -/
theorem ne_name_of_absent
    (absent : ∀ l ∈ lines, openingName? l.text ≠ some name) {b : ResultBlock}
    (hb : b ∈ (groupLines lines).2.map fun (name, lines) =>
      ResultBlock.ofLines name lines) :
    b.name ≠ name := by
  obtain ⟨g, hg, rfl⟩ := List.mem_map.1 hb
  have mem : g.1 ∈ lines.filterMap (openingName? ·.text) := by
    rw [← map_fst_groupLines]
    exact List.mem_map.2 ⟨g, hg, rfl⟩
  obtain ⟨l, hl, hopens⟩ := List.mem_filterMap.1 mem
  rw [name_ofLines]
  rintro rfl
  exact absent l hl hopens

theorem findBlock?_groups_none
    (absent : ∀ l ∈ lines, openingName? l.text ≠ some name) :
    findBlock? ((groupLines lines).2.map fun (name, lines) =>
      .ofLines name lines) name = none := by
  rw [findBlock?, List.find?_eq_none]
  intro b hb
  simpa using ne_name_of_absent absent (List.mem_reverse.1 hb)

/-- The last of the opening lines of a name, with the lines up to the
next opening line, is found. -/
theorem findBlock?_groups (opens : openingName? opening.text = some name)
    (continues : ∀ l ∈ rest, openingName? l.text = none)
    (stops : ∀ l, after.head? = some l → (openingName? l.text).isSome)
    (last : ∀ l ∈ after, openingName? l.text ≠ some name) :
    findBlock? ((groupLines (before ++ opening :: (rest ++ after))).2.map
      fun (name, lines) =>
      .ofLines name lines) name = some (.ofLines name (opening :: rest)) := by
  obtain ⟨groups, split⟩ :=
    exists_groupLines_append before opens (rest ++ after)
  have later := findBlock?_groups_none last
  rw [findBlock?] at later
  rw [split, groupLines_append continues stops, findBlock?, List.map_append,
    List.map_cons, List.reverse_append, List.reverse_cons, List.append_assoc,
    List.find?_append, later, Option.none_or, List.singleton_append,
    List.find?_cons_of_pos (by simp [name_ofLines])]

end

/-! ## The text of a block -/

theorem joinLines_cons (line : Text) (lines : List Text) :
    joinLines (line :: lines) = line ++ lines.flatMap ('\n' :: ·) :=
  intercalate_cons '\n' line lines

/-- To a block with text, each further line is added behind a line feed. -/
theorem foldl_addLine {b : ResultBlock} (ne : b.text ≠ [])
    (lines : List RenderedLine) :
    lines.foldl ResultBlock.addLine b =
      ⟨b.name, b.text ++ (lines.map RenderedLine.text).flatMap ('\n' :: ·),
        b.markup ++ (lines.map RenderedLine.markup).flatMap ('\n' :: ·)⟩ := by
  induction lines generalizing b with
  | nil => simp
  | cons line lines ih =>
    have added : b.addLine line =
        ⟨b.name, b.text ++ '\n' :: line.text,
          b.markup ++ '\n' :: line.markup⟩ := by
      simp [ResultBlock.addLine, ne]
    rw [List.foldl_cons, ih (by simp [added]), added]
    simp

/-- The block of lines with text: their texts and their markups, joined by line
feeds. -/
theorem ofLines_eq {name : Text} {lines : List RenderedLine}
    (shown : ∀ l ∈ lines, l.text ≠ []) :
    ResultBlock.ofLines name lines =
      ⟨name, joinLines (lines.map RenderedLine.text),
        joinLines (lines.map RenderedLine.markup)⟩ := by
  cases lines with
  | nil => rfl
  | cons line lines =>
    have first : (ResultBlock.empty name).addLine line =
        ⟨name, line.text, line.markup⟩ := by
      simp [ResultBlock.addLine, ResultBlock.empty]
    have ne := shown line List.mem_cons_self
    rw [ResultBlock.ofLines, List.foldl_cons, first, foldl_addLine ne,
      List.map_cons, List.map_cons, joinLines_cons, joinLines_cons]

theorem untagged_ofLines {name : Text} {lines : List RenderedLine}
    (untagged : ∀ l ∈ lines, Untagged l.markup) :
    Untagged (ResultBlock.ofLines name lines).markup := by
  have add {b : ResultBlock} (hb : Untagged b.markup) (ls : List RenderedLine)
      (hls : ∀ l ∈ ls, Untagged l.markup) :
      Untagged (ls.foldl ResultBlock.addLine b).markup := by
    induction ls generalizing b with
    | nil => exact hb
    | cons l ls ih =>
      apply ih _ fun l' hl' => hls l' (List.mem_cons_of_mem l hl')
      intro c hc
      simp only [ResultBlock.addLine, List.mem_append] at hc
      rcases hc with (hc | hc) | hc
      · exact hb c hc
      · split at hc
        · cases hc
        · rw [List.mem_singleton.1 hc]
          decide
      · exact hls l List.mem_cons_self c hc
  apply add _ lines untagged
  intro c hc
  cases hc

theorem afterLast?_append {mark : Char} {s : Text} (h : mark ∉ s)
    (front : Text) :
    ResultBlock.afterLast? mark (front ++ mark :: s) = some s := by
  have none : ResultBlock.afterLast? mark s = none := by
    induction s with
    | nil => rfl
    | cons c s ih =>
      rw [List.mem_cons, not_or] at h
      rw [ResultBlock.afterLast?, ih h.2, if_neg (Ne.symm h.1)]
  induction front with
  | nil => rw [List.nil_append, ResultBlock.afterLast?, none, if_pos rfl]
  | cons c front ih => rw [List.cons_append, ResultBlock.afterLast?, ih]

/-! ## Plain lines -/

/-- The lines of a block as they are shown, without the blank ones. -/
def shownLines (block : List Text) : List RenderedLine :=
  (block.map RenderedLine.ofMarkup).filter (!·.text.isEmpty)

theorem shownLines_append (above below : List Text) :
    shownLines (above ++ below) = shownLines above ++ shownLines below := by
  simp [shownLines]

theorem shownLines_cons {line : Text}
    (shown : (RenderedLine.ofMarkup line).text ≠ []) (lines : List Text) :
    shownLines (line :: lines) = .ofMarkup line :: shownLines lines := by
  simp [shownLines, shown]

theorem mem_shownLines {l : RenderedLine} {block : List Text}
    (h : l ∈ shownLines block) :
    l.text ≠ [] ∧ ∃ line ∈ block, l = .ofMarkup line := by
  obtain ⟨mem, shown⟩ := List.mem_filter.1 h
  obtain ⟨line, hline, rfl⟩ := List.mem_map.1 mem
  exact ⟨by simpa using shown, line, hline, rfl⟩

/-- The block that holds the final value of a name: its last opening line, and
the lines after it up to the next opening line. -/
structure LastBlock (lines : List Text) (name opening : Text)
    (rest : List Text) : Prop where
  place : ∃ before after, lines = before ++ opening :: (rest ++ after) ∧
    (∀ l, after.head? = some l → (openingName? l).isSome = true) ∧
    ∀ l ∈ after, openingName? l ≠ some name
  opens : openingName? opening = some name
  continues : ∀ l ∈ rest, openingName? l = none

/-- A name that is opened has a last block. -/
theorem exists_lastBlock {lines : List Text} {name : Text}
    (h : ∃ l ∈ lines, openingName? l = some name) :
    ∃ opening rest, LastBlock lines name opening rest := by
  induction lines with
  | nil =>
    obtain ⟨l, hl, -⟩ := h
    cases hl
  | cons line lines ih =>
    by_cases later : ∃ l ∈ lines, openingName? l = some name
    · obtain ⟨opening, rest, ⟨before, after, rfl, place⟩, opens, continues⟩ :=
        ih later
      exact ⟨opening, rest, ⟨line :: before, after, rfl, place⟩, opens,
        continues⟩
    · obtain ⟨l, hl, opens⟩ := h
      rcases List.mem_cons.1 hl with rfl | hl
      · refine ⟨l, lines.takeWhile fun l => (openingName? l).isNone,
          ⟨[], lines.dropWhile fun l => (openingName? l).isNone, ?_, ?_, ?_⟩,
          opens, ?_⟩
        · rw [List.takeWhile_append_dropWhile]
          rfl
        · intro l' hl'
          have head :=
            List.head?_dropWhile_not (fun l => (openingName? l).isNone) lines
          rw [hl'] at head
          simpa [← Option.isSome_iff_ne_none] using head
        · intro l' hl' opens'
          exact later ⟨l', (List.dropWhile_suffix _).subset hl', opens'⟩
        · intro l' hl'
          have none := List.mem_takeWhile_imp hl'
          simpa using none
      · exact absurd ⟨l, hl, opens⟩ later

section

variable {lines block : List Text} {name opening tail : Text} {rest : List Text}

/-- The text behind the last equals sign of a block. -/
def EqualsTail (block : List Text) (tail : Text) : Prop :=
  ∃ above lead below, block = above ++ (lead ++ '=' :: tail) :: below ∧
    '=' ∉ tail ∧
    ∀ l ∈ below, '=' ∉ l

theorem shown_of_opens {line : Text} (plain : PlainLine line)
    (opens : (openingName? line).isSome = true) :
    (RenderedLine.ofMarkup line).text ≠ [] := by
  intro nil
  rw [← openingName?_ofMarkup plain, nil] at opens
  cases opens

theorem resultBlocks_joinLines (plain : ∀ l ∈ lines, PlainLine l) :
    resultBlocks (joinLines lines) =
      (groupLines (shownLines lines)).2.map fun (name, lines) =>
        .ofLines name lines := by
  rw [resultBlocks, renderedLines_joinLines plain]
  rfl

theorem openingName?_shownLines {lines : List Text}
    (plain : ∀ l ∈ lines, PlainLine l) {l : RenderedLine}
    (h : l ∈ shownLines lines) :
    ∃ line ∈ lines, openingName? l.text = openingName? line := by
  obtain ⟨-, line, hline, rfl⟩ := mem_shownLines h
  exact ⟨line, hline, openingName?_ofMarkup (plain line hline)⟩

theorem findBlock?_absent (plain : ∀ l ∈ lines, PlainLine l)
    (absent : ∀ l ∈ lines, openingName? l ≠ some name) :
    findBlock? (resultBlocks (joinLines lines)) name = none := by
  rw [resultBlocks_joinLines plain]
  apply findBlock?_groups_none
  intro l hl
  obtain ⟨line, hline, same⟩ := openingName?_shownLines plain hl
  rw [same]
  exact absent line hline

theorem findBlock?_lastBlock (plain : ∀ l ∈ lines, PlainLine l)
    (h : LastBlock lines name opening rest) :
    findBlock? (resultBlocks (joinLines lines)) name =
      some (.ofLines name (shownLines (opening :: rest))) := by
  obtain ⟨⟨before, after, rfl, stops, last⟩, opens, continues⟩ := h
  have plainOpening := plain opening (by simp)
  have plainRest : ∀ l ∈ rest, PlainLine l := fun l hl => plain l (by simp [hl])
  have plainAfter : ∀ l ∈ after, PlainLine l :=
    fun l hl => plain l (by simp [hl])
  have shown := shown_of_opens plainOpening (by rw [opens]; rfl)
  rw [resultBlocks_joinLines plain, shownLines_append, shownLines_cons shown,
    shownLines_append, shownLines_cons shown]
  apply findBlock?_groups
  · rw [openingName?_ofMarkup plainOpening, opens]
  · intro l hl
    obtain ⟨line, hline, same⟩ := openingName?_shownLines plainRest hl
    rw [same]
    exact continues line hline
  · intro l hl
    cases after with
    | nil => cases hl
    | cons line after =>
      have plainLine := plainAfter line List.mem_cons_self
      rw [shownLines_cons (shown_of_opens plainLine (stops line rfl))] at hl
      cases hl
      rw [openingName?_ofMarkup plainLine]
      exact stops line rfl
  · intro l hl
    obtain ⟨line, hline, same⟩ := openingName?_shownLines plainAfter hl
    rw [same]
    exact last line hline

theorem PlainLine.map_shownChar {line : Text} (h : PlainLine line) :
    PlainLine (line.map shownChar) := by
  intro c hc
  obtain ⟨d, hd, rfl⟩ := List.mem_map.1 hc
  rw [shownChar]
  split
  · decide
  · exact h d hd

/-- What is shown of a line are its characters, spaces and minus signs. -/
theorem mem_normalize_shown {line : Text} (h : PlainLine line) {c : Char}
    (hc : c ∈ normalize (line.map shownChar)) :
    c = ' ' ∨ c = '-' ∨ c ∈ line := by
  rcases mem_normalizeFrom h.map_shownChar hc with space | hc
  · exact .inl space
  · obtain ⟨d, hd, rfl⟩ := List.mem_map.1 hc
    rw [shownChar]
    split
    · exact .inr (.inl rfl)
    · exact .inr (.inr hd)

theorem text_ofMarkup {line : Text} (h : PlainLine line) :
    (RenderedLine.ofMarkup line).text =
      trim (normalize (line.map shownChar)) := by
  rw [RenderedLine.ofMarkup, meaning_of_untagged (untagged_of_plain h)]

theorem mem_text_ofMarkup {line : Text} (h : PlainLine line) {c : Char}
    (hc : c ∈ (RenderedLine.ofMarkup line).text) :
    c = ' ' ∨ c = '-' ∨ c ∈ line := by
  rw [text_ofMarkup h] at hc
  exact mem_normalize_shown h
    ((trimStart_isSuffix _).subset ((trimEnd_isPrefix _).subset hc))

/-- A line is shown in two parts, before and after an equals sign. -/
theorem text_ofMarkup_equals {lead : Text}
    (h : PlainLine (lead ++ '=' :: tail)) :
    (RenderedLine.ofMarkup (lead ++ '=' :: tail)).text =
      trimStart (normalize (lead.map shownChar)) ++
        '=' :: trimEnd (normalize (tail.map shownChar)) := by
  have sign : shownChar '=' = '=' := rfl
  have cut : normalize (lead.map shownChar ++ '=' :: tail.map shownChar) =
      normalize (lead.map shownChar) ++ '=' :: normalize (tail.map shownChar) :=
    normalizeFrom_append_mark (by decide) false _ _
  rw [text_ofMarkup h, List.map_append, List.map_cons, sign, cut,
    trim_append_cons (by decide)]

theorem joinLines_append_cons (above : List Text) (line : Text)
    (below : List Text) :
    ∃ front, joinLines (above ++ line :: below) =
      front ++ (line ++ below.flatMap ('\n' :: ·)) := by
  induction above with
  | nil => exact ⟨[], joinLines_cons line below⟩
  | cons first above ih =>
    obtain ⟨front, join⟩ := ih
    refine ⟨first ++ '\n' :: front, ?_⟩
    rw [List.cons_append]
    cases hrest : above ++ line :: below with
    | nil => simp at hrest
    | cons line' lines =>
      rw [joinLines_cons_cons, ← hrest, join]
      simp

/-- Lines without an equals sign are shown without one. -/
theorem equals_not_mem_shownLines {below : List Text}
    (plain : ∀ l ∈ below, PlainLine l) (unsigned : ∀ l ∈ below, '=' ∉ l) :
    '=' ∉ ((shownLines below).map RenderedLine.text).flatMap ('\n' :: ·) := by
  intro mem
  obtain ⟨t, ht, mem⟩ := List.mem_flatMap.1 mem
  obtain ⟨l, hl, rfl⟩ := List.mem_map.1 ht
  obtain ⟨-, line, hline, rfl⟩ := mem_shownLines hl
  rcases List.mem_cons.1 mem with eq | mem
  · cases eq
  rcases mem_text_ofMarkup (plain line hline) mem with eq | eq | mem
  · cases eq
  · cases eq
  · exact unsigned line hline mem

/-- The tail of a block of plain lines is what is shown of the text behind the
last equals sign. -/
theorem tail_ofLines (plain : ∀ l ∈ block, PlainLine l)
    (h : EqualsTail block tail) :
    (ResultBlock.ofLines name (shownLines block)).tail =
      trimEnd (normalize (tail.map shownChar)) := by
  obtain ⟨above, lead, below, rfl, alone, unsigned⟩ := h
  have plainLine := plain (lead ++ '=' :: tail) (by simp)
  have plainBelow : ∀ l ∈ below, PlainLine l :=
    fun l hl => plain l (by simp [hl])
  have plainTail := plainLine.of_append.2.tail.2
  have text := text_ofMarkup_equals plainLine
  have shown : (RenderedLine.ofMarkup (lead ++ '=' :: tail)).text ≠ [] := by
    simp [text]
  obtain ⟨front, join⟩ :=
    joinLines_append_cons ((shownLines above).map RenderedLine.text)
      (RenderedLine.ofMarkup (lead ++ '=' :: tail)).text
      ((shownLines below).map RenderedLine.text)
  generalize htail : trimEnd (normalize (tail.map shownChar)) =
    shownTail at text ⊢
  have fromTail {c : Char} (hc : c ∈ shownTail) :
      c = ' ' ∨ c = '-' ∨ c ∈ tail := by
    rw [← htail] at hc
    exact mem_normalize_shown plainTail ((trimEnd_isPrefix _).subset hc)
  -- No equals sign follows, neither on the line nor on the lines below.
  have last : '=' ∉ shownTail ++
      ((shownLines below).map RenderedLine.text).flatMap ('\n' :: ·) := by
    intro mem
    rcases List.mem_append.1 mem with mem | mem
    · rcases fromTail mem with eq | eq | mem
      · cases eq
      · cases eq
      · exact alone mem
    · exact equals_not_mem_shownLines plainBelow unsigned mem
  have unbroken : ∀ c ∈ shownTail, (c != '\n') = true := by
    intro c hc
    rw [bne_iff_ne]
    rintro rfl
    rcases fromTail hc with eq | eq | mem
    · cases eq
    · cases eq
    · exact (ne_break_of_isPlain (plainTail _ mem)).1 rfl
  rw [ResultBlock.tail, ofLines_eq fun l hl => (mem_shownLines hl).1,
    shownLines_append, shownLines_cons shown, List.map_append, List.map_cons,
    join, text, List.append_assoc, List.cons_append, ← List.append_assoc,
    afterLast?_append last]
  simp only [List.takeWhile_append_of_pos unbroken]
  cases (shownLines below).map RenderedLine.text <;> simp

/-! ## Numbers -/

theorem Prints.word {number : Text} {x : Float} (h : Prints number x) :
    number ≠ [] ∧ ∀ c ∈ number, isBlank c = false ∧ c ≠ '−' := by
  have written {n : Decimal.Numeral} (hn : n.Written Char.isDigit) :
      n.text ≠ [] ∧ ∀ c ∈ n.text, isBlank c = false ∧ c ≠ '−' := by
    have mild := Mild.of_written hn
    refine ⟨mild.ne, fun c hc => ⟨mild.not_isBlank c hc, ?_⟩⟩
    rintro rfl
    rcases hn.mem_text hc with digit | mark
    · exact absurd digit (by decide)
    · simp [Decimal.marks] at mark
  cases h with
  | plain finite =>
    obtain ⟨n, hn, -, htext, -⟩ := Decimal.exists_plain finite
    rw [← htext]
    exact written hn
  | @spelled n sign digits x hn power value =>
    obtain ⟨-, chars⟩ := written hn
    refine ⟨by simp [Decimal.Numeral.spelled, power], ?_⟩
    intro c hc
    have parts : c ∈ n.text ∨ c ∈ ['×', '1', '0', '^'] := by
      simp only [Decimal.Numeral.spelled, Decimal.Numeral.text,
        Decimal.powerText, Decimal.Power.text, power, Option.elim_some,
        List.mem_append, List.mem_cons] at hc ⊢
      tauto
    rcases parts with hc | hc
    · exact chars c hc
    · simp only [List.mem_cons, List.not_mem_nil, or_false] at hc
      rcases hc with rfl | rfl | rfl | rfl <;> exact ⟨by decide, by simp⟩

namespace Behind

variable {left unit : Text}

theorem ne_minus (h : Behind left unit) : ∀ c ∈ left, c ≠ '−' := by
  rintro c hc rfl
  cases h with
  | nothing => cases hc
  | unit _ blank token _ =>
    rcases List.mem_append.1 hc with hc | hc
    · exact absurd (isBlank_of_mem blank _ hc) (by decide +kernel)
    · rcases token.of_mem hc with start | char | eq
      · exact absurd start (by decide +kernel)
      · exact absurd char (by decide +kernel)
      · exact absurd eq (by decide)

theorem last (h : Behind left unit) : left.getLast?.any isBlank = false := by
  cases h with
  | nothing => rfl
  | unit _ blank token _ =>
    have some : unit ≠ [] := by
      rintro rfl
      exact absurd token.first (by decide)
    rw [List.getLast?_append_of_ne_nil _ some]
    exact token.trimmed.last

/-- Blanks before a unit are shown as one space. -/
theorem normalize (h : Behind left unit) (plain : PlainLine left) :
    Behind (Text.normalize left) unit := by
  cases h with
  | nothing => exact .nothing
  | @unit gap unit ne blank token untenfold =>
    have shown :=
      normalizeFrom_gap plain.of_append.1 blank plain.of_append.2
        token.trimmed.head false
    have word := normalize_word plain.of_append.2 token.not_isBlank []
    rw [List.append_nil] at word
    have space : (if gap.isEmpty || false then [] else [' ']) = [' '] := by
      simp [ne]
    rw [Text.normalize, shown, word, space]
    simp only [Text.normalize, normalizeFrom, List.append_nil]
    exact .unit (by simp) rfl token untenfold

end Behind

/-- There is no minus sign that is not ASCII around or in a printed number. -/
theorem map_shownChar_printed {gap number left unit : Text} {x : Float}
    (blank : isAllBlank gap = true) (prints : Prints number x)
    (behind : Behind left unit) :
    (gap ++ (number ++ left)).map shownChar = gap ++ (number ++ left) := by
  have keep : ∀ c ∈ gap ++ (number ++ left), shownChar c = c := by
    intro c hc
    apply if_neg
    rcases List.mem_append.1 hc with hc | hc
    · rintro rfl
      exact absurd (isBlank_of_mem blank _ hc) (by decide +kernel)
    rcases List.mem_append.1 hc with hc | hc
    · exact (prints.word.2 c hc).2
    · exact behind.ne_minus c hc
  exact (List.map_congr_left keep).trans (List.map_id _)

/-- A number behind an equals sign is shown as it was printed, with at most a
space in front. -/
theorem shown_number {gap number left unit : Text} {x : Float}
    (blank : isAllBlank gap = true) (prints : Prints number x)
    (behind : Behind left unit) (plain : PlainLine (gap ++ (number ++ left))) :
    ∃ gap' left', trimEnd
      (normalize ((gap ++ (number ++ left)).map shownChar)) =
      gap' ++ (number ++ left') ∧ isAllBlank gap' = true ∧
        Behind left' unit := by
  obtain ⟨ne, word⟩ := prints.word
  obtain ⟨plainGap, plainRest⟩ := plain.of_append
  obtain ⟨plainNumber, plainLeft⟩ := plainRest.of_append
  have behind' := behind.normalize plainLeft
  have nonblank : ∀ c ∈ number, isBlank c = false := fun c hc => (word c hc).1
  have trimmed := Trimmed.of_not_isBlank nonblank
  have shown := normalizeFrom_gap plainGap blank plainRest
    (trimmed.head_append ne left) false
  rw [normalize_word plainNumber nonblank] at shown
  refine ⟨if gap.isEmpty || false then [] else [' '], Text.normalize left, ?_,
    ?_, behind'⟩
  · rw [map_shownChar_printed blank prints behind, Text.normalize, shown]
    apply dropEndWhile_of_last
    rw [List.getLast?_append_of_ne_nil _ (by simp [ne])]
    cases hleft : Text.normalize left with
    | nil =>
      rw [List.append_nil]
      exact trimmed.last
    | cons c left' =>
      rw [List.getLast?_append_of_ne_nil _ (by simp), ← hleft]
      exact behind'.last
  · split <;> rfl

/-- A number with a unit or without one, in the tail of a block without tags, is
what extraction finds. -/
theorem extraction_of_tail {b : ResultBlock} {gap number left unit : Text}
    {x : Float} (untagged : Untagged b.markup)
    (tail : b.tail = gap ++ (number ++ left)) (blank : isAllBlank gap = true)
    (prints : Prints number x) (behind : Behind left unit) :
    b.value = .ok x ∧
      b.unit .builtIn = if unit = [] then .error ⟨b.name, .noUnit⟩
        else .ok unit := by
  obtain ⟨rest, read, unit_eq⟩ := scalar?_prints prints blank behind
  obtain ⟨fraction, italic⟩ := drawn_of_untagged (untagged_tail untagged)
  have token : Vocabulary.builtIn.unitToken unit = unit := by
    cases behind with
    | nothing => rfl
    | unit _ _ token _ => exact Vocabulary.unitToken_eq_self_iff.2 (.inr token)
  constructor
  · rw [ResultBlock.value, tail, read]
  · simp only [ResultBlock.unit, fraction, italic, Option.or_none,
      Option.none_or, Vocabulary.unitAfterScalar?, tail, read, unit_eq, token,
      List.isEmpty_iff]
    by_cases none : unit = [] <;> simp [none]

/-- In an output of plain lines a name that no line opens has no block. A name
that some line opens has a last block, and when a number was printed behind the
last equals sign there, with nothing but a unit after it, extraction finds the
number and the unit. -/
theorem plain_text_extraction {lines : List Text}
    (plain : ∀ l ∈ lines, PlainLine l) (name : Text) :
    ((∀ l ∈ lines, openingName? l ≠ some name) →
      findBlock? (resultBlocks (joinLines lines)) name = none) ∧
    ((∃ l ∈ lines, openingName? l = some name) →
      ∃ opening rest, LastBlock lines name opening rest) ∧
    ∀ opening rest, LastBlock lines name opening rest →
      ∃ b, findBlock? (resultBlocks (joinLines lines)) name = some b ∧
        ∀ gap number left unit x, isAllBlank gap = true → Prints number x →
          Behind left unit →
          EqualsTail (opening :: rest) (gap ++ (number ++ left)) →
          b.value = .ok x ∧
            b.unit .builtIn = if unit = [] then .error ⟨name, .noUnit⟩
              else .ok unit := by
  refine ⟨findBlock?_absent plain, exists_lastBlock, ?_⟩
  intro opening rest block
  refine ⟨_, findBlock?_lastBlock plain block, ?_⟩
  intro gap number left unit x blank prints behind equals
  have inside : ∀ l ∈ opening :: rest, PlainLine l := by
    obtain ⟨before, after, rfl, -⟩ := block.place
    intro l hl
    apply plain l
    rcases List.mem_cons.1 hl with rfl | hl <;> simp [*]
  have plainTail : PlainLine (gap ++ (number ++ left)) := by
    obtain ⟨above, lead, below, place, -⟩ := equals
    exact (inside (lead ++ '=' :: (gap ++ (number ++ left)))
      (by simp [place])).of_append.2.tail.2
  obtain ⟨gap', left', shown, blank', behind'⟩ :=
    shown_number blank prints behind plainTail
  have tail :
      (ResultBlock.ofLines name (shownLines (opening :: rest))).tail = _ :=
    tail_ofLines inside equals
  rw [shown] at tail
  have untagged :
      Untagged (ResultBlock.ofLines name
        (shownLines (opening :: rest))).markup := by
    apply untagged_ofLines
    intro l hl
    obtain ⟨-, line, hline, rfl⟩ := mem_shownLines hl
    exact untagged_of_plain (inside line hline)
  have extracted := extraction_of_tail untagged tail blank' prints behind'
  rwa [name_ofLines] at extracted

/-- A power of ten on the second line of a block, with a unit. -/
theorem plain_text_extraction_sample :
    ∃ b, findBlock? (resultBlocks (joinLines ["x = 1".toList, "y = 2·3".toList,
        "  = 1.5×10^2 kN".toList, "z = 4".toList])) ['y'] = some b ∧
      b.value = .ok 150 ∧ b.unit .builtIn = .ok ['k', 'N'] := by
  have checked : (["x = 1".toList, "y = 2·3".toList, "  = 1.5×10^2 kN".toList,
      "z = 4".toList].all fun l => l.all isPlain) = true := by decide +kernel
  have plain :
      ∀ l ∈ ["x = 1".toList, "y = 2·3".toList, "  = 1.5×10^2 kN".toList,
        "z = 4".toList],
      PlainLine l := by
    intro l hl
    exact List.all_eq_true.1 (List.all_eq_true.1 checked l hl)
  have block :
      LastBlock ["x = 1".toList, "y = 2·3".toList, "  = 1.5×10^2 kN".toList,
      "z = 4".toList] ['y'] "y = 2·3".toList ["  = 1.5×10^2 kN".toList] := by
    refine ⟨⟨["x = 1".toList], ["z = 4".toList], rfl, ?_, ?_⟩, by decide,
      by decide⟩
    · rintro l ⟨rfl⟩
      decide
    · decide
  obtain ⟨b, found, extracted⟩ :=
    (plain_text_extraction plain ['y']).2.2 _ _ block
  have written : Decimal.Numeral.Written Char.isDigit
      ⟨[], ['1'], ['5'], some ⟨'e', [], ['2']⟩⟩ := by
    refine ⟨.inl rfl, by simp, by simp, by simp, ?_⟩
    rintro p ⟨rfl⟩
    exact ⟨.inl rfl, .inl rfl, by simp, by simp⟩
  have value :
      Decimal.value?
        (Decimal.Numeral.text ⟨[], ['1'], ['5'], some ⟨'e', [], ['2']⟩⟩) =
      some 150 := by decide +kernel
  have token : Vocabulary.builtIn.UnitToken ['k', 'N'] := by
    have whole : Vocabulary.builtIn.unitToken ['k', 'N'] = ['k', 'N'] := by
      decide
    exact (Vocabulary.unitToken_eq_self_iff.1 whole).resolve_left (by simp)
  have tail : EqualsTail ["y = 2·3".toList, "  = 1.5×10^2 kN".toList]
      ([' '] ++ (Decimal.Numeral.spelled ⟨[], ['1'], ['5'], some ⟨'e', [], ['2']⟩⟩ ++
        ([' '] ++ ['k', 'N']))) :=
    ⟨["y = 2·3".toList], [' ', ' '], [], rfl, by decide, by simp⟩
  exact ⟨b, found, extracted _ _ _ _ _ rfl (.spelled written rfl value)
    (.unit (by simp) rfl token (by decide)) tail⟩

end

end Worksheet

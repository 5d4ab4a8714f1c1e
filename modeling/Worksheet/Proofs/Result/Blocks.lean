import Mathlib.Data.List.Basic
import Worksheet.Proofs.Markup.Lines
import Worksheet.Proofs.Result.PlainText
import Worksheet.Proofs.Text.NormalForm

/-!
# Blocks end at the next opening line

An output is cut into lines before entities and separators beyond ASCII become
line feeds. A line can therefore hold several rows, and what a later row opens
is lost in the block of the line. Blocks hold one opening row, at their front,
and every opening row begins a block, exactly when each line opens at its first
row or nowhere.
-/

namespace Worksheet

open Text Markup

/-- The names that the rows of a text open. -/
def openings (s : Text) : List Text := (s.splitOn '\n').filterMap openingName?

/-- The first row opens `name`, and no later row opens a name. -/
def OpensAtFront (name : Option Text) (s : Text) : Prop :=
  ∃ row rows, s.splitOn '\n' = row :: rows ∧ openingName? row = name ∧
    ∀ r ∈ rows, openingName? r = none

/-! ## Rows of texts -/

theorem splitOn_append_feed (s t : Text) :
    (s ++ '\n' :: t).splitOn '\n' = s.splitOn '\n' ++ t.splitOn '\n' :=
  List.splitOnP_append_cons s t rfl

theorem splitOn_of_unbroken {s : Text} (h : '\n' ∉ s) :
    s.splitOn '\n' = [s] := by
  have one : (joinLines [s]).splitOn '\n' = [s] :=
    List.splitOn_intercalate '\n' (by simpa using h) (by simp)
  rwa [joinLines, List.intercalate_singleton] at one

theorem openings_append_feed (s t : Text) :
    openings (s ++ '\n' :: t) = openings s ++ openings t := by
  rw [openings, splitOn_append_feed, List.filterMap_append]
  rfl

theorem openings_feed (s : Text) : openings ('\n' :: s) = openings s :=
  openings_append_feed [] s

theorem openings_of_unbroken {s : Text} (h : '\n' ∉ s) :
    openings s = (openingName? s).toList := by
  rw [openings, splitOn_of_unbroken h]
  cases hs : openingName? s <;> simp [hs]

theorem openings_eq_nil_iff {s : Text} :
    openings s = [] ↔ ∀ r ∈ s.splitOn '\n', openingName? r = none :=
  List.filterMap_eq_nil_iff

theorem OpensAtFront.openings {name : Option Text} {s : Text}
    (h : OpensAtFront name s) :
    openings s = name.toList := by
  obtain ⟨row, rows, split, first, later⟩ := h
  have none : rows.filterMap openingName? = [] :=
    List.filterMap_eq_nil_iff.2 later
  rw [Worksheet.openings, split]
  cases name <;> simp [first, none]

/-! ## Margins -/

theorem openings_cons_of_blank {c : Char} (blank : isBlank c = true)
    (s : Text) :
    openings (c :: s) = openings s := by
  by_cases feed : c = '\n'
  · rw [feed, openings_feed]
  have same (row : Text) : openingName? (c :: row) = openingName? row := by
    rw [← openingName?_trimStart, ← openingName?_trimStart row, trimStart,
      trimStart, List.dropWhile_cons_of_pos blank]
  cases split : s.splitOn '\n' with
  | nil => exact absurd split (List.splitOn_ne_nil '\n' s)
  | cons row rows =>
    have split' : (c :: s).splitOn '\n' = (c :: row) :: rows := by
      rw [List.splitOn, List.splitOnP_cons_eq_if_modifyHead,
        if_neg (by simpa using feed)]
      exact congrArg (List.modifyHead (List.cons c)) split
    rw [openings, openings, split', split, List.filterMap_cons,
      List.filterMap_cons, same]

theorem openings_trimStart (s : Text) :
    openings (trimStart s) = openings s := by
  induction s with
  | nil => rfl
  | cons c s ih =>
    cases blank : isBlank c with
    | true =>
      rw [openings_cons_of_blank blank, ← ih, trimStart,
        List.dropWhile_cons_of_pos blank]; rfl
    | false => rw [trimStart, List.dropWhile_cons_of_neg (by simp [blank])]

theorem openings_concat_of_blank {c : Char} (blank : isBlank c = true)
    (s : Text) :
    openings (s ++ [c]) = openings s := by
  by_cases feed : c = '\n'
  · rw [feed, openings_append_feed]
    exact List.append_nil _
  have same (row : Text) : openingName? (row ++ [c]) = openingName? row := by
    rw [← openingName?_trimEnd,
      trimEnd_append_of_isAllBlank (by simpa [isAllBlank] using blank),
      openingName?_trimEnd]
  -- The induction goes along the text behind the row that is read.
  have behind (row : Text) (hrow : '\n' ∉ row) :
      openings (row ++ (s ++ [c])) = openings (row ++ s) := by
    induction s generalizing row with
    | nil =>
      have unbroken : '\n' ∉ row ++ [c] := by simp [hrow, Ne.symm feed]
      rw [List.nil_append, List.append_nil, openings_of_unbroken unbroken,
        openings_of_unbroken hrow, same]
    | cons d s ih =>
      by_cases hd : d = '\n'
      · rw [hd, List.cons_append, openings_append_feed, openings_append_feed]
        exact congrArg (openings row ++ ·) (ih [] (by simp))
      · have longer := ih (row ++ [d]) (by simp [hrow, Ne.symm hd])
        simpa using longer
  exact behind [] (by simp)

theorem openings_append_of_isAllBlank {q : Text} (blank : isAllBlank q = true)
    (s : Text) :
    openings (s ++ q) = openings s := by
  induction q generalizing s with
  | nil => rw [List.append_nil]
  | cons c q ih =>
    rw [isAllBlank, List.all_cons, Bool.and_eq_true] at blank
    rw [List.append_cons, ih blank.2, openings_concat_of_blank blank.1]

/-- The margins of a text open nothing. -/
theorem openings_trim (s : Text) : openings (trim s) = openings s := by
  have join := dropEndWhile_append_takeEndWhile isBlank (trimStart s)
  rw [← openings_trimStart s, ← join,
    openings_append_of_isAllBlank (isAllBlank_takeEndWhile _)]
  rfl

/-! ## Normal forms -/

/-- The rows behind a line break open names apart from what stands in front of
it. -/
theorem openings_append_break {b : Char} (hb : isLineBreak b = true)
    (row : Text) (inRun : Bool) (t : Text) :
    openings (row ++ normalizeFrom inRun (b :: t)) =
      openings row ++ openings (normalize t) := by
  by_cases alone : b = '\r' → t.head? ≠ some '\n'
  · rw [normalizeFrom_break hb alone, openings_append_feed]
  · obtain ⟨rfl, feed⟩ := Classical.not_imp.1 alone
    obtain ⟨t, rfl⟩ := List.head?_eq_some_iff.1 (not_not.1 feed)
    have feed : Text.normalize ('\n' :: t) = '\n' :: Text.normalize t := rfl
    rw [normalizeFrom_return_feed, openings_append_feed, feed, openings_feed]

/-- The rows of a normal form up to a line break and behind it open names apart
from each other. -/
theorem openings_normalizeFrom_append {b : Char} (hb : isLineBreak b = true)
    (inRun : Bool) (s t : Text) :
    openings (normalizeFrom inRun (s ++ b :: t)) =
      openings (normalizeFrom inRun s) ++ openings (normalize t) := by
  have behind (row : Text) :
      openings (row ++ normalizeFrom inRun (s ++ b :: t)) =
      openings (row ++ normalizeFrom inRun s) ++ openings (normalize t) := by
    induction s using normalForm_induction generalizing row inRun with
    | nil =>
      rw [normalizeFrom, List.append_nil]
      exact openings_append_break hb row inRun t
    | returnFeed s ih =>
      rw [List.cons_append, List.cons_append, normalizeFrom_return_feed,
        normalizeFrom_return_feed, openings_append_feed, openings_append_feed,
        List.append_assoc]
      exact congrArg (openings row ++ ·) (ih false [])
    | lineBreak c s hbreak alone ih =>
      rw [List.cons_append, openings_append_break hbreak,
        openings_append_break hbreak, List.append_assoc]
      exact congrArg (openings row ++ ·) (ih false [])
    | gap c s blank unbroken ih =>
      rw [List.cons_append, normalizeFrom_gap_cons blank unbroken,
        normalizeFrom_gap_cons blank unbroken]
      split
      · exact ih true row
      · simpa using ih true (row ++ [' '])
    | mark c s shown ih =>
      rw [List.cons_append, normalizeFrom_mark shown, normalizeFrom_mark shown,
        List.append_cons row _ (Text.normalize s),
        List.append_cons row _ (Text.normalize (s ++ b :: t))]
      exact ih false (row ++ [plainEquals c])
  exact behind []

theorem openings_normalize_append_break {b : Char} (hb : isLineBreak b = true)
    (s t : Text) :
    openings (Text.normalize (s ++ b :: t)) =
      openings (Text.normalize s) ++ openings (Text.normalize t) :=
  openings_normalizeFrom_append hb false s t

theorem openings_normalize_feed (s : Text) :
    openings (Text.normalize ('\n' :: s)) = openings (Text.normalize s) :=
  openings_normalize_append_break (by decide) [] s

/-- The rows of an output open what the rows of its lines open. -/
theorem openings_meanings {ts : List Token} {runs : List (List Token)}
    (h : AreLines ts runs) :
    openings (Text.normalize (meanings ts)) =
      runs.flatMap fun run => openings (Text.normalize (meanings run)) := by
  induction h with
  | last => simp
  | @ended run ts t runs _ ends _ ih =>
    have feed := Token.meaning_of_endsLine ends
    have lone : meanings (run ++ [t]) = meanings run ++ '\n' :: [] := by
      simp [feed, meanings]
    rw [meanings_append, meanings_cons, feed, List.singleton_append,
      openings_normalize_append_break (by decide), List.flatMap_cons, lone,
      openings_normalize_append_break (by decide), ih]
    exact congrArg (· ++ _) (List.append_nil _).symm
  | @broken run sep ts runs _ hsep _ ih =>
    rw [meanings_append, meanings_append, List.flatMap_cons, ← ih]
    simp only [separators, List.mem_cons, List.not_mem_nil, or_false] at hsep
    rcases hsep with rfl | rfl | rfl
    · exact (openings_normalize_append_break (b := '\r') (by decide) _ _).trans
        (congrArg _ (openings_normalize_feed _))
    · exact openings_normalize_append_break (b := '\n') (by decide) _ _
    · exact openings_normalize_append_break (b := '\r') (by decide) _ _

theorem openings_renderedLines (output : Text) :
    openings (Text.normalize (meaning output)) =
      (renderedLines output).flatMap fun l => openings l.text := by
  obtain ⟨runs, lines, -, eq⟩ := exists_renderedLines output
  rw [eq, List.flatMap_map, meaning]
  exact (openings_meanings lines).trans
    (List.flatMap_congr fun run _ => (openings_trim _).symm)

/-! ## Blocks -/

/-- What the groups of lines are. -/
structure Grouped (lines : List RenderedLine)
    (grouped : List RenderedLine × List (Text × List RenderedLine)) : Prop where
  all : lines = grouped.1 ++ grouped.2.flatMap Prod.snd
  before : ∀ l ∈ grouped.1, openingName? l.text = none
  groups : ∀ g ∈ grouped.2, ∃ opening rest, g.2 = opening :: rest ∧
    openingName? opening.text = some g.1 ∧
    ∀ l ∈ rest, openingName? l.text = none

theorem grouped_groupLines (lines : List RenderedLine) :
    Grouped lines (groupLines lines) := by
  induction lines with
  | nil => exact ⟨rfl, by simp [groupLines], by simp [groupLines]⟩
  | cons line lines ih =>
    obtain ⟨all, before, groups⟩ := ih
    rw [groupLines]
    cases opens : openingName? line.text with
    | none =>
      refine ⟨congrArg (line :: ·) all, ?_, groups⟩
      intro l hl
      rcases List.mem_cons.1 hl with rfl | hl
      · exact opens
      · exact before l hl
    | some name =>
      refine ⟨congrArg (line :: ·) all, by simp, ?_⟩
      intro g hg
      rcases List.mem_cons.1 hg with rfl | hg
      · exact ⟨line, _, rfl, opens, before⟩
      · exact groups g hg

theorem opensAtFront_none_iff {s : Text} :
    OpensAtFront none s ↔ openings s = [] := by
  rw [openings_eq_nil_iff, OpensAtFront]
  cases split : s.splitOn '\n' with
  | nil => exact absurd split (List.splitOn_ne_nil '\n' s)
  | cons row rows =>
    constructor
    · rintro ⟨_, _, ⟨rfl, rfl⟩, first, later⟩
      simpa using ⟨first, later⟩
    · intro h
      exact ⟨row, rows, rfl, by simpa using h⟩

theorem splitOn_joinLines (s : Text) (lines : List Text) :
    (joinLines (s :: lines)).splitOn '\n' =
      (s :: lines).flatMap (·.splitOn '\n') := by
  induction lines generalizing s with
  | nil => simp [joinLines]
  | cons s' lines ih =>
    rw [joinLines_cons_cons, splitOn_append_feed, ih]
    rfl

/-- Lines joined by line feeds open at their front when the first does and the
others open nothing. -/
theorem opensAtFront_joinLines {name : Option Text} {s : Text}
    {lines : List Text} :
    OpensAtFront name (joinLines (s :: lines)) ↔
      OpensAtFront name s ∧ ∀ l ∈ lines, OpensAtFront none l := by
  simp only [opensAtFront_none_iff, openings_eq_nil_iff]
  rw [OpensAtFront, OpensAtFront, splitOn_joinLines, List.flatMap_cons]
  cases split : s.splitOn '\n' with
  | nil => exact absurd split (List.splitOn_ne_nil '\n' s)
  | cons row rows =>
    constructor
    · rintro ⟨_, _, ⟨rfl, rfl⟩, first, later⟩
      refine ⟨⟨row, rows, rfl, first,
        fun r hr => later r (List.mem_append_left _ hr)⟩, ?_⟩
      intro l hl r hr
      exact later r (List.mem_append_right _ (List.mem_flatMap.2 ⟨l, hl, hr⟩))
    · rintro ⟨⟨_, _, ⟨rfl, rfl⟩, first, later⟩, others⟩
      refine ⟨row, _, rfl, first, ?_⟩
      intro r hr
      rcases List.mem_append.1 hr with hr | hr
      · exact later r hr
      · obtain ⟨l, hl, hr⟩ := List.mem_flatMap.1 hr
        exact others l hl r hr

namespace Grouped

variable {lines : List RenderedLine}
  {grouped : List RenderedLine × List (Text × List RenderedLine)}

/-- The text of a group opens at its front when its lines do. -/
theorem opensAtFront_iff (h : Grouped lines grouped)
    {g : Text × List RenderedLine} (hg : g ∈ grouped.2) :
    OpensAtFront (some g.1) (joinLines (g.2.map RenderedLine.text)) ↔
      ∀ l ∈ g.2, OpensAtFront (openingName? l.text) l.text := by
  obtain ⟨opening, rest, eq, opens, continues⟩ := h.groups g hg
  rw [eq, List.map_cons, opensAtFront_joinLines, List.forall_mem_cons,
    List.forall_mem_map, opens]
  refine and_congr_right fun _ => forall₂_congr fun l hl => ?_
  rw [continues l hl]

/-- When the groups open at their fronts, the rows of all lines open the names
of the groups, unless a line in front of them opens a name. -/
theorem flatMap_openings (h : Grouped lines grouped)
    (front : ∀ g ∈ grouped.2, ∀ l ∈ g.2,
      OpensAtFront (openingName? l.text) l.text) :
    lines.flatMap (fun l => openings l.text) =
      grouped.1.flatMap (fun l => openings l.text) ++
        grouped.2.map Prod.fst := by
  have group {g : Text × List RenderedLine} (hg : g ∈ grouped.2) :
      g.2.flatMap (fun l => openings l.text) = [g.1] := by
    have each : g.2.flatMap (fun l => openings l.text) =
        g.2.flatMap fun l => (openingName? l.text).toList :=
      List.flatMap_congr fun l hl => (front g hg l hl).openings
    obtain ⟨opening, rest, eq, opens, continues⟩ := h.groups g hg
    have none : rest.flatMap (fun l => (openingName? l.text).toList) = [] := by
      rw [List.flatMap_eq_nil_iff]
      intro l hl
      rw [continues l hl]
      rfl
    rw [each, eq, List.flatMap_cons, opens, none]
    rfl
  have groups :
      grouped.2.flatMap (fun g => g.2.flatMap fun l => openings l.text) =
      grouped.2.map Prod.fst := by
    rw [List.flatMap_congr fun g hg => group hg]
    exact List.flatMap_pure_eq_map Prod.fst grouped.2
  rw [← groups, ← List.flatMap_assoc, ← List.flatMap_append, ← h.all]

end Grouped

/-- The lines of an output that have text. -/
def textLines (output : Text) : List RenderedLine :=
  (renderedLines output).filter (!·.text.isEmpty)

theorem ne_nil_of_mem_textLines {output : Text} {l : RenderedLine}
    (h : l ∈ textLines output) :
    l.text ≠ [] := by
  simpa using (List.mem_filter.1 h).2

/-- Lines without text open nothing. -/
theorem forall_textLines_iff {output : Text} :
    (∀ l ∈ textLines output, OpensAtFront (openingName? l.text) l.text) ↔
      ∀ l ∈ renderedLines output,
        OpensAtFront (openingName? l.text) l.text := by
  constructor
  · intro h l hl
    by_cases none : l.text = []
    · rw [none]
      exact ⟨[], [], rfl, rfl, by simp⟩
    · exact h l (List.mem_filter.2 ⟨hl, by simpa using none⟩)
  · intro h l hl
    exact h l (List.mem_filter.1 hl).1

theorem openings_textLines (output : Text) :
    openings (Text.normalize (meaning output)) =
      (textLines output).flatMap fun l => openings l.text := by
  have skip (lines : List RenderedLine) :
      lines.flatMap (fun l => openings l.text) =
      (lines.filter (!·.text.isEmpty)).flatMap fun l => openings l.text := by
    induction lines with
    | nil => rfl
    | cons l lines ih =>
      rw [List.flatMap_cons, List.filter_cons, ih]
      by_cases none : l.text = []
      · simp [none, openings_of_unbroken]
        rfl
      · simp [none]
  rw [openings_renderedLines, skip]
  rfl

/-- The blocks are the groups of the lines that have text. -/
theorem forall_resultBlocks_iff {output : Text} :
    (∀ b ∈ resultBlocks output, OpensAtFront (some b.name) b.text) ↔
      ∀ g ∈ (groupLines (textLines output)).2, ∀ l ∈ g.2,
        OpensAtFront (openingName? l.text) l.text := by
  have grouped := grouped_groupLines (textLines output)
  have shown {g : Text × List RenderedLine}
      (hg : g ∈ (groupLines (textLines output)).2) :
      ∀ l ∈ g.2, l.text ≠ [] := by
    intro l hl
    have mem : l ∈ textLines output := by
      rw [grouped.all]
      exact List.mem_append_right _ (List.mem_flatMap.2 ⟨g, hg, hl⟩)
    exact ne_nil_of_mem_textLines mem
  rw [resultBlocks]
  simp only [List.forall_mem_map]
  refine forall₂_congr fun g hg => ?_
  rw [ofLines_eq (shown hg), grouped.opensAtFront_iff hg]

/-- The first row of every block opens the name of the block and no later
row opens a name, and every row of the normal form of an output that opens a
name begins a block of that name, exactly when each rendered line opens a
name at its first row or not at all. -/
theorem resultBlocks_delimited_iff (output : Text) :
    ((∀ b ∈ resultBlocks output, OpensAtFront (some b.name) b.text) ∧
        (resultBlocks output).map ResultBlock.name =
          openings (Text.normalize (meaning output))) ↔
      ∀ l ∈ renderedLines output,
        OpensAtFront (openingName? l.text) l.text := by
  have grouped := grouped_groupLines (textLines output)
  have names : (resultBlocks output).map ResultBlock.name =
      (groupLines (textLines output)).2.map Prod.fst := by
    rw [resultBlocks, List.map_map]
    exact List.map_congr_left fun g _ => name_ofLines g.1 g.2
  rw [← forall_textLines_iff, forall_resultBlocks_iff, names,
    openings_textLines]
  constructor
  · rintro ⟨front, same⟩ l hl
    rw [grouped.flatMap_openings front] at same
    rw [grouped.all] at hl
    rcases List.mem_append.1 hl with hl | hl
    · have none :=
        List.flatMap_eq_nil_iff.1 (List.self_eq_append_left.1 same) l hl
      rw [grouped.before l hl]
      exact opensAtFront_none_iff.2 none
    · obtain ⟨g, hg, hl⟩ := List.mem_flatMap.1 hl
      exact front g hg l hl
  · intro all
    have inside : ∀ g ∈ (groupLines (textLines output)).2, ∀ l ∈ g.2,
        OpensAtFront (openingName? l.text) l.text := by
      intro g hg l hl
      apply all
      rw [grouped.all]
      exact List.mem_append_right _ (List.mem_flatMap.2 ⟨g, hg, hl⟩)
    refine ⟨inside, ?_⟩
    have none : (groupLines (textLines output)).1.flatMap
        (fun l => openings l.text) = [] := by
      rw [List.flatMap_eq_nil_iff]
      intro l hl
      have opens := all l (by rw [grouped.all]; exact List.mem_append_left _ hl)
      rw [grouped.before l hl] at opens
      exact opensAtFront_none_iff.1 opens
    rw [grouped.flatMap_openings inside, none, List.nil_append]

/-- The line separator hides the second opening row from the cut into lines. -/
theorem resultBlocks_hidden_row :
    ¬ ((∀ b ∈ resultBlocks "A = 1\u2028B = 2".toList,
        OpensAtFront (some b.name) b.text) ∧
      (resultBlocks "A = 1\u2028B = 2".toList).map ResultBlock.name =
        openings (Text.normalize (meaning "A = 1\u2028B = 2".toList))) := by
  have names : (resultBlocks "A = 1\u2028B = 2".toList).map ResultBlock.name =
      [['A']] := by
    decide +kernel
  have rows : openings (Text.normalize (meaning "A = 1\u2028B = 2".toList)) =
      [['A'], ['B']] := by
    decide +kernel
  rintro ⟨-, same⟩
  rw [names, rows] at same
  exact absurd same (by decide)

end Worksheet

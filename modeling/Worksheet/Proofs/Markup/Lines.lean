import Mathlib.Data.List.Basic
import Worksheet.Proofs.Markup.Lexing
import Worksheet.Proofs.Markup.Plain
import Worksheet.Proofs.Text.NormalForm

/-!
# Lines of tokens

An output is cut between its tokens, so each piece of it is a run of tokens as
written, and means what these tokens mean. Any of the pieces, joined by line
feeds, are read as these runs again.
-/

namespace Worksheet.Markup

open Text

/-- A token inside a line. -/
def Token.Goes (t : Token) : Prop := t.isBreak = false ∧ t.endsLine = false

/-- What stands between two lines and is dropped. -/
def separators : List (List Token) :=
  [[.char '\r', .char '\n'], [.char '\n'], [.char '\r']]

/-- Tokens, cut into the runs of their lines. -/
inductive AreLines : List Token → List (List Token) → Prop where
  | last {run : List Token} (goes : ∀ t ∈ run, t.Goes) : AreLines run [run]
  | ended {run ts : List Token} {t : Token} {runs : List (List Token)}
    (goes : ∀ t ∈ run, t.Goes)
    (ends : t.endsLine = true) (rest : AreLines ts runs) :
    AreLines (run ++ t :: ts) ((run ++ [t]) :: runs)
  | broken {run sep ts : List Token} {runs : List (List Token)}
    (goes : ∀ t ∈ run, t.Goes)
    (hsep : sep ∈ separators) (rest : AreLines ts runs) :
    AreLines (run ++ (sep ++ ts)) (run :: runs)

/-- Puts a token in front of the first run. -/
def pushToken (t : Token) : List (List Token) → List (List Token)
  | [] => [[t]]
  | run :: runs => (t :: run) :: runs

/-- Cuts tokens into the runs of their lines; of a carriage return and a line
feed after it, only the line feed cuts. -/
def lineRuns : List Token → List (List Token)
  | [] => [[]]
  | t :: ts =>
    if t.isBreak then
      if t = .char '\r' ∧ ts.head? = some (.char '\n') then lineRuns ts
      else [] :: lineRuns ts
    else if t.endsLine then [t] :: lineRuns ts
    else pushToken t (lineRuns ts)

theorem AreLines.cons {t : Token} {ts : List Token} {runs : List (List Token)}
    (h : AreLines ts runs) (ht : t.Goes) :
    AreLines (t :: ts) (pushToken t runs) ∧
      (pushToken t runs).map unlex = pushPiece t.text (runs.map unlex) := by
  have goes {run : List Token} (h : ∀ t ∈ run, t.Goes) :
      ∀ u ∈ t :: run, u.Goes := by
    intro u hu
    rcases List.mem_cons.1 hu with rfl | hu
    · exact ht
    · exact h u hu
  cases h with
  | last hrun => exact ⟨.last (goes hrun), rfl⟩
  | ended hrun ends rest => exact ⟨.ended (goes hrun) ends rest, rfl⟩
  | broken hrun hsep rest => exact ⟨.broken (goes hrun) hsep rest, rfl⟩

/-- The pieces of tokens are the runs of their lines as written. -/
theorem areLines_lineRuns (ts : List Token) :
    AreLines ts (lineRuns ts) ∧ pieces ts = (lineRuns ts).map unlex := by
  fun_induction pieces ts with
  | case1 => exact ⟨.last (by simp), rfl⟩
  | case2 ts ih =>
    obtain ⟨lines, eq⟩ := ih
    have hsep : [.char '\r', .char '\n'] ∈ separators := List.mem_cons_self
    have cut : lineRuns (.char '\r' :: .char '\n' :: ts) = [] :: lineRuns ts :=
      rfl
    rw [cut, eq]
    exact ⟨.broken (List.forall_mem_nil _) hsep lines, rfl⟩
  | case3 t ts apart hbreak ih =>
    obtain ⟨lines, eq⟩ := ih
    have hsep : [t] ∈ separators := by
      cases t with
      | char c =>
        simp only [Token.isBreak, Bool.or_eq_true, beq_iff_eq] at hbreak
        rcases hbreak with rfl | rfl <;> simp [separators]
      | tag t => cases hbreak
      | entity e => cases hbreak
    have cut : lineRuns (t :: ts) = [] :: lineRuns ts := by
      rw [lineRuns, if_pos hbreak, if_neg]
      rintro ⟨ret, feed⟩
      obtain ⟨ts', rfl⟩ := List.head?_eq_some_iff.1 feed
      exact apart ts' ret rfl
    rw [cut, eq]
    exact ⟨.broken (List.forall_mem_nil _) hsep lines, rfl⟩
  | case4 t ts _ hbreak ends ih =>
    obtain ⟨lines, eq⟩ := ih
    have cut : AreLines ([] ++ t :: ts) (([] ++ [t]) :: lineRuns ts) :=
      .ended (by simp) ends lines
    rw [lineRuns, if_neg hbreak, if_pos ends, eq]
    exact ⟨cut, by simp [unlex]⟩
  | case5 t ts _ hbreak ends ih =>
    obtain ⟨lines, eq⟩ := ih
    have goes : t.Goes := ⟨by simpa using hbreak, by simpa using ends⟩
    obtain ⟨pushed, text⟩ := lines.cons goes
    rw [lineRuns, if_neg hbreak, if_neg ends, eq, text]
    exact ⟨pushed, rfl⟩

/-- A run without breaks, in which at most the last token ends the line. -/
structure IsLine (run : List Token) : Prop where
  unbroken : ∀ t ∈ run, t.isBreak = false
  inner : ∀ t ∈ run.dropLast, t.endsLine = false

theorem IsLine.suffix {run post : List Token} (h : IsLine run)
    (hpost : post <:+ run) :
    IsLine post := by
  refine ⟨fun t ht => h.unbroken t (hpost.subset ht), ?_⟩
  obtain ⟨front, rfl⟩ := hpost
  intro t ht
  apply h.inner
  cases post with
  | nil => cases ht
  | cons u post =>
    rw [List.dropLast_append_of_ne_nil (by simp)]
    exact List.mem_append_right front ht

/-- Each run is a line of tokens of the output. -/
theorem AreLines.isLine {ts : List Token} {runs : List (List Token)}
    (h : AreLines ts runs) :
    ∀ run ∈ runs, IsLine run ∧ run ⊆ ts := by
  have inside {run : List Token} (goes : ∀ t ∈ run, t.Goes) : IsLine run :=
    ⟨fun t ht => (goes t ht).1,
      fun t ht => (goes t ((List.dropLast_sublist run).subset ht)).2⟩
  induction h with
  | last goes => simpa using inside goes
  | @ended run ts t runs goes ends rest ih =>
    rintro r hr
    rcases List.mem_cons.1 hr with rfl | hr
    · have last : t.isBreak = false := by
        cases t with
        | char c => cases ends
        | tag t => rfl
        | entity e => rfl
      refine ⟨⟨?_, by simpa using fun t ht => (goes t ht).2⟩, by simp⟩
      intro u hu
      rcases List.mem_append.1 hu with hu | hu
      · exact (goes u hu).1
      · rw [List.mem_singleton.1 hu, last]
    · obtain ⟨line, sub⟩ := ih r hr
      exact ⟨line, fun u hu => by simp [sub hu]⟩
  | broken goes hsep rest ih =>
    rintro r hr
    rcases List.mem_cons.1 hr with rfl | hr
    · exact ⟨inside goes, by simp⟩
    · obtain ⟨line, sub⟩ := ih r hr
      exact ⟨line, fun u hu => by simp [sub hu]⟩

/-! ## Reading the lines again -/

/-- Runs of tokens, each of which is read in front of some text; where that text
holds no `>`, none of the later runs does. -/
inductive LexedLines : List (List Token) → Prop where
  | nil : LexedLines []
  | cons {run : List Token} {runs : List (List Token)} {after : Text}
    (first : Lexed run after)
    (close : ∀ r ∈ runs, '>' ∈ unlex r → '>' ∈ after) (rest : LexedLines runs) :
    LexedLines (run :: runs)

theorem AreLines.mem_unlex {ts : List Token} {runs : List (List Token)}
    (h : AreLines ts runs) {run : List Token} (hrun : run ∈ runs) {c : Char}
    (hc : c ∈ unlex run) : c ∈ unlex ts := by
  induction h with
  | last =>
    obtain rfl := List.mem_singleton.1 hrun
    exact hc
  | @ended first ts t runs _ _ _ ih =>
    rcases List.mem_cons.1 hrun with rfl | hrun
    · simp only [unlex_append, unlex_cons, List.mem_append] at hc ⊢
      tauto
    · simp [ih hrun]
  | broken _ _ _ ih =>
    rcases List.mem_cons.1 hrun with rfl | hrun
    · simp [hc]
    · simp [ih hrun]

theorem AreLines.lexedLines {ts : List Token} {runs : List (List Token)}
    (h : AreLines ts runs) {after : Text} (lexed : Lexed ts after) :
    LexedLines runs := by
  induction h with
  | last => exact .cons lexed (by simp) .nil
  | @ended run ts t runs goes ends rest ih =>
    have split : run ++ t :: ts = (run ++ [t]) ++ ts := by simp
    rw [split] at lexed
    obtain ⟨first, later⟩ := lexed.of_append
    refine .cons first ?_ (ih later)
    intro r hr close
    exact List.mem_append_left after (rest.mem_unlex hr close)
  | @broken run sep ts runs goes hsep rest ih =>
    obtain ⟨first, later⟩ := lexed.of_append
    refine .cons first ?_ (ih later.of_append.2)
    intro r hr close
    simp [rest.mem_unlex hr close]

theorem LexedLines.sublist {runs some : List (List Token)} (h : LexedLines runs)
    (hsome : some.Sublist runs) : LexedLines some := by
  induction hsome with
  | slnil => exact .nil
  | cons _ _ ih =>
    cases h with
    | cons _ _ rest => exact ih rest
  | cons_cons run hsome ih =>
    cases h with
    | cons first close rest =>
      exact .cons first (fun r hr => close r (hsome.subset hr)) (ih rest)

theorem LexedLines.lexed_of_mem {runs : List (List Token)} (h : LexedLines runs)
    {run : List Token} (hrun : run ∈ runs) : ∃ after, Lexed run after := by
  induction h with
  | nil => cases hrun
  | cons first _ _ ih =>
    rcases List.mem_cons.1 hrun with rfl | hrun
    · exact ⟨_, first⟩
    · exact ih hrun

/-- The runs with a line feed between any two of them. -/
def joinRuns (runs : List (List Token)) : List Token :=
  [.char '\n'].intercalate runs

theorem joinRuns_cons_cons (run run' : List Token) (runs : List (List Token)) :
    joinRuns (run :: run' :: runs) =
      run ++ .char '\n' :: joinRuns (run' :: runs) := by
  simp [joinRuns, List.intercalate_cons_cons]

theorem unlex_joinRuns (runs : List (List Token)) :
    unlex (joinRuns runs) = joinLines (runs.map unlex) := by
  induction runs with
  | nil => rfl
  | cons run runs ih =>
    cases runs with
    | nil => simp [joinRuns, joinLines, List.intercalate_singleton]
    | cons run' runs =>
      rw [joinRuns_cons_cons, unlex_append, unlex_cons, ih]
      simp [Token.text, joinLines_cons_cons]

theorem mem_joinRuns {runs : List (List Token)} {c : Char}
    (h : c ∈ unlex (joinRuns runs)) :
    c = '\n' ∨ ∃ run ∈ runs, c ∈ unlex run := by
  induction runs with
  | nil => cases h
  | cons run runs ih =>
    cases runs with
    | nil => exact .inr ⟨run, List.mem_cons_self, by simpa [joinRuns] using h⟩
    | cons run' runs =>
      simp only [joinRuns_cons_cons, unlex_append, unlex_cons, Token.text,
        List.mem_append, List.mem_singleton] at h
      rcases h with h | h | h
      · exact .inr ⟨run, List.mem_cons_self, h⟩
      · exact .inl h
      · rcases ih h with feed | ⟨r, hr, hc⟩
        · exact .inl feed
        · exact .inr ⟨r, List.mem_cons_of_mem run hr, hc⟩

/-- Lines joined by line feeds are read as their tokens. -/
theorem LexedLines.lexed {runs : List (List Token)} (h : LexedLines runs) :
    Lexed (joinRuns runs) [] := by
  induction h with
  | nil => exact .nil
  | @cons run runs after first close rest ih =>
    cases runs with
    | nil =>
      rw [joinRuns, List.intercalate_singleton]
      exact first.cut ⟨rfl, by simp⟩
    | cons run' runs =>
      rw [joinRuns_cons_cons]
      refine .append (first.cut ⟨rfl, ?_⟩) (.cons ⟨by simp, by simp⟩ ih)
      intro mem
      rw [List.append_nil, unlex_cons, Token.text, List.singleton_append] at mem
      have mem := (List.mem_cons.1 mem).resolve_left (by decide)
      obtain ⟨r, hr, mem⟩ := (mem_joinRuns mem).resolve_left (by decide)
      exact close r hr mem

/-! ## Rendered lines -/

/-- What tokens mean, one after the other. -/
def meanings (ts : List Token) : Text := ts.flatMap Token.meaning

@[simp] theorem meanings_cons (t : Token) (ts : List Token) :
    meanings (t :: ts) = t.meaning ++ meanings ts := rfl

@[simp] theorem meanings_append (ts us : List Token) :
    meanings (ts ++ us) = meanings ts ++ meanings us := List.flatMap_append

/-- Whether a token stands for a line break at which no line is cut. -/
def Token.hidesBreak : Token → Bool
  | tag _ => false
  | entity e => isLineBreak e.character
  | char c => isLineBreak c && c != '\n' && c != '\r'

theorem Token.meaning_of_endsLine {t : Token} (h : t.endsLine = true) :
    t.meaning = ['\n'] := by
  cases t with
  | tag t => exact if_pos h
  | entity e => cases h
  | char c => cases h

theorem Token.unbroken_meaning {t : Token} (goes : t.Goes)
    (shows : t.hidesBreak = false) :
    Unbroken t.meaning := by
  obtain ⟨unbroken, inner⟩ := goes
  cases t with
  | tag t =>
    have apart : t.endsLine = false := inner
    simp only [meaning, Tag.meaning, apart, Bool.false_eq_true, if_false]
    split
    · simp [Unbroken, isLineBreak]
    · split <;> simp [Unbroken, isLineBreak]
  | entity e =>
    intro c hc
    rw [List.mem_singleton.1 hc]
    exact shows
  | char c =>
    intro d hd
    rw [meaning, List.mem_singleton] at hd
    subst hd
    split
    · decide
    · simp only [hidesBreak, isBreak, Bool.or_eq_false_iff, beq_eq_false_iff_ne]
        at shows unbroken
      simpa [unbroken] using shows

/-- A line that hides no break means a text without line breaks, up to a line
feed at its end. -/
theorem IsLine.meanings_eq {run : List Token} (h : IsLine run)
    (shows : ∀ t ∈ run, t.hidesBreak = false) :
    ∃ s, Unbroken s ∧ (meanings run = s ∨ meanings run = s ++ ['\n']) := by
  have inner : Unbroken (meanings run.dropLast) := by
    intro c hc
    obtain ⟨t, ht, hc⟩ := List.mem_flatMap.1 hc
    have mem := (List.dropLast_sublist run).subset ht
    exact Token.unbroken_meaning ⟨h.unbroken t mem, h.inner t ht⟩
      (shows t mem) c hc
  by_cases none : run = []
  · exact ⟨[], by simp [Unbroken], .inl (by simp [none, meanings])⟩
  have split := List.dropLast_append_getLast none
  have mem := List.getLast_mem none
  generalize run.getLast none = last at split mem
  have joined : meanings run = meanings run.dropLast ++ last.meaning := by
    conv_lhs => rw [← split]
    simp [meanings]
  cases ends : last.endsLine with
  | true =>
    refine ⟨_, inner, .inr ?_⟩
    rw [joined, Token.meaning_of_endsLine ends]
  | false =>
    refine ⟨_, ?_, .inl joined⟩
    intro c hc
    rcases List.mem_append.1 hc with hc | hc
    · exact inner c hc
    · exact Token.unbroken_meaning ⟨h.unbroken last mem, ends⟩
        (shows last mem) c hc

/-- A line that hides no break is shown as one row, up to blanks at its end. -/
theorem IsLine.normalize_meanings {run : List Token} (h : IsLine run)
    (shows : ∀ t ∈ run, t.hidesBreak = false) :
    ∃ row margin, '\n' ∉ row ∧ isAllBlank margin = true ∧
      Text.normalize (meanings run) = row ++ margin := by
  obtain ⟨s, unbroken, means⟩ := h.meanings_eq shows
  rcases means with means | means
  · exact ⟨_, [], unbroken.feed_not_mem false, rfl,
      by rw [means, List.append_nil]; rfl⟩
  · exact ⟨_, ['\n'], unbroken.feed_not_mem false, by decide,
      by rw [means, Text.normalize, unbroken.normalizeFrom_feed]⟩

/-- The line of a run of tokens. -/
def RenderedLine.ofRun (run : List Token) : RenderedLine :=
  ⟨trim (normalize (meanings run)), unlex run⟩

theorem LexedLines.map_ofMarkup {runs : List (List Token)}
    (h : LexedLines runs) :
    (runs.map unlex).map RenderedLine.ofMarkup =
      runs.map RenderedLine.ofRun := by
  induction h with
  | nil => rfl
  | cons first _ _ ih =>
    rw [List.map_cons, List.map_cons, ih, RenderedLine.ofMarkup,
      first.meaning_unlex, List.map_cons]
    rfl

/-- The rendered lines are those of the runs of tokens. -/
theorem renderedLines_eq (output : Text) :
    renderedLines output =
      (lineRuns (tokens output)).map RenderedLine.ofRun := by
  obtain ⟨lines, eq⟩ := areLines_lineRuns (tokens output)
  rw [renderedLines, eq, (lines.lexedLines (lexed_tokens output)).map_ofMarkup]

/-- The rendered lines are those of runs of tokens, which are the lines of the
output and can be read again. -/
theorem exists_renderedLines (output : Text) :
    ∃ runs, AreLines (tokens output) runs ∧ LexedLines runs ∧
      renderedLines output = runs.map RenderedLine.ofRun := by
  obtain ⟨lines, -⟩ := areLines_lineRuns (tokens output)
  exact ⟨_, lines, lines.lexedLines (lexed_tokens output),
    renderedLines_eq output⟩

end Worksheet.Markup

import Mathlib.Data.List.Basic
import Worksheet.Markup.RenderedLine
import Worksheet.Markup.Unit
import Worksheet.Proofs.Markup.Lexing
import Worksheet.Proofs.Text.NormalForm

/-!
# Plain lines

A line without tags, entities, line breaks and full-width equals signs is shown
as it stands, up to its blanks: the margins go, a run of blanks inside becomes
one space, and the minus sign of mathematics becomes the plain one.
-/

namespace Worksheet

open Text Markup

/-- Whether a character is shown by itself. -/
def isPlain (c : Char) : Bool :=
  c != '<' && c != '&' && c != '＝' && !isLineBreak c

/-- A line that is cut out and shown character by character. -/
def PlainLine (s : Text) : Prop := ∀ c ∈ s, isPlain c = true

/-- The text of a rendered output with the given lines. -/
def joinLines (lines : List Text) : Text := ['\n'].intercalate lines

theorem PlainLine.of_append {s t : Text} (h : PlainLine (s ++ t)) :
    PlainLine s ∧ PlainLine t :=
  ⟨fun c hc => h c (List.mem_append_left t hc),
    fun c hc => h c (List.mem_append_right s hc)⟩

theorem PlainLine.tail {c : Char} {s : Text} (h : PlainLine (c :: s)) :
    isPlain c = true ∧ PlainLine s :=
  ⟨h c List.mem_cons_self, fun d hd => h d (List.mem_cons_of_mem c hd)⟩

section

variable {c : Char} (h : isPlain c = true)

include h

theorem not_begins_of_isPlain : c ≠ '<' ∧ c ≠ '&' := by
  simp only [isPlain, Bool.and_eq_true, bne_iff_ne] at h
  exact h.1.1

theorem not_isLineBreak_of_isPlain : isLineBreak c = false := by
  simp only [isPlain, Bool.and_eq_true, Bool.not_eq_true'] at h
  exact h.2

theorem ne_equals_of_isPlain : c ≠ '＝' := by
  simp only [isPlain, Bool.and_eq_true, bne_iff_ne] at h
  exact h.1.2

theorem ne_break_of_isPlain : c ≠ '\n' ∧ c ≠ '\r' := by
  have unbroken := not_isLineBreak_of_isPlain h
  constructor <;> rintro rfl <;> exact absurd unbroken (by decide)

end

/-- In a joined list the separator stands in front of every part but the
first. -/
theorem intercalate_cons {α : Type} (separator : α) (part : List α)
    (parts : List (List α)) :
    [separator].intercalate (part :: parts) =
      part ++ parts.flatMap (separator :: ·) := by
  induction parts generalizing part with
  | nil => simp
  | cons next parts ih =>
    rw [List.intercalate_cons_cons, ih, List.flatMap_cons, List.append_assoc,
      List.singleton_append, List.cons_append]

theorem joinLines_cons_cons (line line' : Text) (lines : List Text) :
    joinLines (line :: line' :: lines) =
      line ++ '\n' :: joinLines (line' :: lines) := by
  simp [joinLines, List.intercalate_cons_cons]

namespace Text

/-! ## Normal form -/

theorem plainEquals_of_isPlain {c : Char} (h : isPlain c = true) :
    plainEquals c = c :=
  if_neg (ne_equals_of_isPlain h)

theorem normalizeFrom_blank {c : Char} (h : isPlain c = true)
    (blank : isBlank c = true) (inRun : Bool) (s : Text) :
    normalizeFrom inRun (c :: s) =
      if inRun then normalizeFrom true s else ' ' :: normalizeFrom true s :=
  normalizeFrom_gap_cons blank (not_isLineBreak_of_isPlain h) inRun s

theorem normalizeFrom_shown {c : Char} (h : isPlain c = true)
    (shown : isBlank c = false) (inRun : Bool) (s : Text) :
    normalizeFrom inRun (c :: s) = c :: normalize s := by
  rw [normalizeFrom_mark shown, plainEquals_of_isPlain h]

/-- A run of blanks at the front becomes a space at most. -/
theorem trimStart_normalizeFrom {s : Text} (h : PlainLine s) (inRun : Bool) :
    trimStart (normalizeFrom inRun s) = normalize (trimStart s) := by
  induction s generalizing inRun with
  | nil => rfl
  | cons c s ih =>
    obtain ⟨plain, rest⟩ := h.tail
    cases blank : isBlank c with
    | true =>
      have skip : trimStart (c :: s) = trimStart s := by simp [trimStart, blank]
      rw [normalizeFrom_blank plain blank, skip]
      split
      · exact ih rest true
      · exact ih rest true
    | false =>
      have stay (t : Text) : trimStart (c :: t) = c :: t := by
        simp [trimStart, blank]
      rw [normalizeFrom_shown plain blank, stay, stay]
      exact (normalizeFrom_shown plain blank false s).symm

theorem normalize_word {w : Text} (h : PlainLine w)
    (shown : ∀ c ∈ w, isBlank c = false) (s : Text) :
    normalize (w ++ s) = w ++ normalize s := by
  induction w with
  | nil => rfl
  | cons c w ih =>
    obtain ⟨plain, rest⟩ := h.tail
    rw [List.cons_append, normalize,
      normalizeFrom_shown plain (shown c List.mem_cons_self),
      ih rest fun d hd => shown d (List.mem_cons_of_mem c hd), List.cons_append]

/-- Blanks in front of a word become one space. -/
theorem normalizeFrom_gap {gap : Text} (h : PlainLine gap)
    (blank : isAllBlank gap = true) {s : Text} (plain : PlainLine s)
    (head : s.head?.any isBlank = false) (inRun : Bool) :
    normalizeFrom inRun (gap ++ s) =
      (if gap.isEmpty || inRun then [] else [' ']) ++ normalize s := by
  induction gap generalizing inRun with
  | nil =>
    cases s with
    | nil => cases inRun <;> rfl
    | cons c s =>
      have shown : isBlank c = false := head
      rw [List.nil_append, normalize, normalizeFrom_shown plain.tail.1 shown,
        normalizeFrom_shown plain.tail.1 shown]
      simp
  | cons c gap ih =>
    obtain ⟨plain', rest⟩ := h.tail
    rw [isAllBlank, List.all_cons, Bool.and_eq_true] at blank
    rw [List.cons_append, normalizeFrom_blank plain' blank.1, ih rest blank.2]
    cases inRun <;> simp

/-- The characters of a normal form are spaces or from the text. -/
theorem mem_normalizeFrom {s : Text} (h : PlainLine s) {inRun : Bool} {c : Char}
    (hc : c ∈ normalizeFrom inRun s) : c = ' ' ∨ c ∈ s := by
  induction s generalizing inRun with
  | nil => cases hc
  | cons d s ih =>
    obtain ⟨plain, rest⟩ := h.tail
    have later {r : Bool} (hc : c ∈ normalizeFrom r s) : c = ' ' ∨ c ∈ d :: s :=
      (ih rest hc).imp_right (List.mem_cons_of_mem d)
    cases blank : isBlank d with
    | true =>
      rw [normalizeFrom_blank plain blank] at hc
      split at hc
      · exact later hc
      · rcases List.mem_cons.1 hc with rfl | hc
        · exact .inl rfl
        · exact later hc
    | false =>
      rw [normalizeFrom_shown plain blank] at hc
      rcases List.mem_cons.1 hc with rfl | hc
      · exact .inr List.mem_cons_self
      · exact later hc

end Text
/-! ## Tokens -/

namespace Markup

/-- No character of the text begins a tag or an entity. -/
def Untagged (s : Text) : Prop := ∀ c ∈ s, c ≠ '<' ∧ c ≠ '&'

theorem tokens_append_of_untagged {s : Text} (h : Untagged s) (t : Text) :
    tokens (s ++ t) = s.map .char ++ tokens t := by
  induction s with
  | nil => rfl
  | cons c s ih =>
    obtain ⟨tag, entity⟩ := h c List.mem_cons_self
    have next : Token.next c (s ++ t) = (.char c, s ++ t) := by
      rw [Token.next, if_neg tag, if_neg entity]
    rw [List.cons_append, tokens, next,
      ih fun d hd => h d (List.mem_cons_of_mem c hd), List.map_cons,
      List.cons_append]

theorem tokens_of_untagged {s : Text} (h : Untagged s) :
    tokens s = s.map .char := by
  have alone := tokens_append_of_untagged h []
  rwa [List.append_nil, tokens, List.append_nil] at alone

/-- An entity is read as a whole behind its `&`, and character by character
without it. -/
theorem tokens_of_entity {s rest : Text} {e : Entity}
    (read : Entity.readAfter? s = some (e, rest)) :
    (∀ c ∈ e.reference ++ [';'], (c ≠ '<' ∧ c ≠ '&') ∧ c ≠ '\n' ∧ c ≠ '\r') ∧
      tokens ('&' :: s) = .entity e :: tokens rest ∧
      tokens s = (e.reference ++ [';']).map .char ++ tokens rest := by
  obtain ⟨sound, rfl⟩ := Entity.readAfter?_eq_some_iff.1 read
  have inside : ∀ c ∈ e.reference ++ [';'], (c ≠ '<' ∧ c ≠ '&') ∧ c ≠ '\n' ∧
      c ≠ '\r' := by
    intro c hc
    have known : Entity.isReferenceChar c = true ∨ c = ';' := by
      rcases List.mem_append.1 hc with hc | hc
      · exact .inl (sound.reference c hc)
      · exact .inr (List.mem_singleton.1 hc)
    refine ⟨⟨?_, ?_⟩, ?_, ?_⟩ <;> rintro rfl <;> revert known <;> decide
  have stands : (Token.entity e).Stands rest := sound
  refine ⟨inside, ?_, ?_⟩
  · rw [← stands.tokens]
    simp [Token.text, Entity.text]
  · rw [← tokens_append_of_untagged fun c hc => (inside c hc).1]
    simp

/-- The character that is shown for a character. -/
def shownChar (c : Char) : Char := if c = '−' then '-' else c

theorem meaning_of_untagged {s : Text} (h : Untagged s) :
    meaning s = s.map shownChar := by
  rw [meaning, tokens_of_untagged h, List.flatMap_map]
  exact List.flatMap_pure_eq_map shownChar s

theorem splitTags_map_char (s : Text) : (splitTags (s.map .char)).2 = [] := by
  induction s with
  | nil => rfl
  | cons c s ih => exact ih

/-- A text without tags draws no unit. -/
theorem drawn_of_untagged {s : Text} (h : Untagged s) :
    fractionUnit? s = none ∧ italicUnit? s = none := by
  have none : taggedTexts s = [] := by
    rw [taggedTexts, tokens_of_untagged h, splitTags_map_char]
  constructor
  · rw [fractionUnit?, none]
    rfl
  · rw [italicUnit?, none]
    rfl

theorem afterEquals?_sublist {ts rest : List Token}
    (h : afterEquals? ts = some rest) :
    rest.Sublist ts := by
  induction ts with
  | nil => cases h
  | cons t ts ih =>
    rw [afterEquals?] at h
    split at h
    · next found =>
      cases h
      exact (ih found).cons t
    · split at h
      · cases h
        exact List.sublist_cons_self t _
      · cases h

theorem untagged_tail {s : Text} (h : Untagged s) : Untagged (tail s) := by
  unfold tail
  split
  · next ts found =>
    have sublist := afterEquals?_sublist found
    rw [tokens_of_untagged h] at sublist
    obtain ⟨rest, hrest, rfl⟩ := List.sublist_map_iff.1 sublist
    have text : unlex (rest.map .char) = rest := by
      rw [unlex, List.flatMap_map]
      exact List.flatMap_singleton' rest
    rw [text]
    intro c hc
    exact h c (hrest.subset ((List.takeWhile_sublist _).subset hc))
  · intro c hc
    cases hc

/-! ## Lines -/

theorem pieces_cons {t : Token} {ts : List Token}
    (alone : t = .char '\r' → ts.head? ≠ some (.char '\n')) :
    pieces (t :: ts) =
      if t.isBreak then [] :: pieces ts
      else if t.endsLine then t.text :: pieces ts
      else pushPiece t.text (pieces ts) := by
  rw [pieces.eq_def]
  split
  · next heq => cases heq
  · next heq =>
    obtain ⟨rfl, rfl⟩ := List.cons.inj heq
    exact absurd rfl (alone rfl)
  · next heq =>
    obtain ⟨rfl, rfl⟩ := List.cons.inj heq
    rfl

theorem pieces_char {c : Char} (feed : c ≠ '\n') (ret : c ≠ '\r')
    (ts : List Token) :
    pieces (.char c :: ts) = pushPiece [c] (pieces ts) := by
  rw [pieces_cons (by simp [ret])]
  simp [Token.isBreak, Token.endsLine, Token.text, feed, ret]

theorem pieces_feed (ts : List Token) :
    pieces (.char '\n' :: ts) = [] :: pieces ts :=
  pieces_cons (by simp)

theorem pieces_ne_nil (ts : List Token) : pieces ts ≠ [] := by
  have pushed (s : Text) (ps : List Text) : pushPiece s ps ≠ [] := by
    cases ps <;> simp [pushPiece]
  fun_induction pieces ts with
  | case1 => simp
  | case2 => simp
  | case3 => simp
  | case4 => simp
  | case5 => exact pushed _ _

theorem pushPiece_append (s t : Text) (ps : List Text) :
    pushPiece (s ++ t) ps = pushPiece s (pushPiece t ps) := by
  cases ps with
  | nil => rfl
  | cons p ps => simp [pushPiece]

/-- Characters that break no line go to the front of the first line after
them. -/
theorem pieces_map_char {s : Text} (unbroken : ∀ c ∈ s, c ≠ '\n' ∧ c ≠ '\r')
    (ts : List Token) :
    pieces (s.map .char ++ ts) = pushPiece s (pieces ts) := by
  induction s with
  | nil =>
    cases h : pieces ts with
    | nil => exact absurd h (pieces_ne_nil ts)
    | cons p ps => exact h
  | cons c s ih =>
    obtain ⟨feed, ret⟩ := unbroken c List.mem_cons_self
    rw [List.map_cons, List.cons_append, pieces_char feed ret,
      ih fun d hd => unbroken d (List.mem_cons_of_mem c hd), ← pushPiece_append]
    rfl

theorem pieces_line {line : Text} (h : PlainLine line) :
    pieces (line.map .char) = [line] := by
  rw [← List.append_nil (line.map _),
    pieces_map_char fun c hc => ne_break_of_isPlain (h c hc)]
  simp [pieces, pushPiece]

theorem pieces_line_feed {line : Text} (h : PlainLine line) (ts : List Token) :
    pieces (line.map .char ++ .char '\n' :: ts) = line :: pieces ts := by
  rw [pieces_map_char fun c hc => ne_break_of_isPlain (h c hc), pieces_feed]
  simp [pushPiece]

theorem untagged_of_plain {line : Text} (h : PlainLine line) :
    Untagged line := by
  intro c hc
  exact not_begins_of_isPlain (h c hc)

theorem untagged_joinLines {lines : List Text} (h : ∀ l ∈ lines, PlainLine l) :
    Untagged (joinLines lines) := by
  induction lines with
  | nil => simp [joinLines, Untagged]
  | cons line lines ih =>
    have first := untagged_of_plain (h line List.mem_cons_self)
    have rest := ih fun l hl => h l (List.mem_cons_of_mem line hl)
    cases lines with
    | nil => rwa [joinLines, List.intercalate_singleton]
    | cons line' lines =>
      rw [joinLines_cons_cons]
      intro c hc
      rcases List.mem_append.1 hc with hc | hc
      · exact first c hc
      rcases List.mem_cons.1 hc with rfl | hc
      · decide
      · exact rest c hc

/-- An output of plain lines is cut into these lines. -/
theorem pieces_joinLines {lines : List Text} (ne : lines ≠ [])
    (h : ∀ l ∈ lines, PlainLine l) :
    pieces (tokens (joinLines lines)) = lines := by
  rw [tokens_of_untagged (untagged_joinLines h)]
  induction lines with
  | nil => exact absurd rfl ne
  | cons line lines ih =>
    have plain := h line List.mem_cons_self
    cases lines with
    | nil =>
      rw [joinLines, List.intercalate_singleton]
      exact pieces_line plain
    | cons line' lines =>
      rw [joinLines_cons_cons, List.map_append, List.map_cons,
        pieces_line_feed plain,
        ih (by simp) fun l hl => h l (List.mem_cons_of_mem line hl)]

/-- The lines of an output without lines are blank. -/
theorem renderedLines_joinLines {lines : List Text}
    (h : ∀ l ∈ lines, PlainLine l) :
    (renderedLines (joinLines lines)).filter (!·.text.isEmpty) =
      (lines.map RenderedLine.ofMarkup).filter (!·.text.isEmpty) := by
  by_cases ne : lines = []
  · subst ne
    have blank : RenderedLine.ofMarkup [] = ⟨[], []⟩ := by
      rw [RenderedLine.ofMarkup, meaning_of_untagged (by simp [Untagged])]
      rfl
    have one : renderedLines (joinLines []) = [RenderedLine.ofMarkup []] := by
      rw [renderedLines, tokens_of_untagged (untagged_joinLines h)]
      rfl
    rw [one, blank]
    rfl
  · rw [renderedLines, pieces_joinLines ne h]

end Markup
end Worksheet

import Mathlib.Data.List.Basic
import Worksheet.Proofs.Markup.Lines

/-!
# Cutting into lines loses nothing

A markup is its lines with the line breaks between them that were dropped, and
so is its text: what the lines mean one by one, with the same line breaks
between them, is what the whole markup means. The lines are also found by a scan
that knows tags only; entities never stand in its way.
-/

namespace Worksheet.Markup

open Text

/-- Lists one after the other, with a gap behind each of them as long as there
are gaps. -/
def weave {α : Type} : (parts gaps : List (List α)) → List α
  | [], _ => []
  | part :: parts, gaps => part ++ (gaps.head?.getD [] ++ weave parts gaps.tail)

theorem flatMap_weave {α β : Type} (f : α → List β)
    (parts gaps : List (List α)) :
    (weave parts gaps).flatMap f =
      weave (parts.map (·.flatMap f)) (gaps.map (·.flatMap f)) := by
  induction parts generalizing gaps with
  | nil => rfl
  | cons part parts ih => cases gaps <;> simp [weave, ih]

/-! ## The gaps between lines -/

/-- Whether the last token of a line ends it. -/
def endsItself (run : List Token) : Bool := run.getLast?.any Token.endsLine

theorem endsItself_of_goes {run : List Token} (h : ∀ t ∈ run, t.Goes) :
    endsItself run = false := by
  rw [endsItself]
  cases last : run.getLast? with
  | none => rfl
  | some t => exact (h t (List.mem_of_getLast? last)).2

/-- Lines and what was dropped between them make up the tokens. Nothing was
dropped exactly behind the lines that end themselves. -/
theorem AreLines.exists_gaps {ts : List Token} {runs : List (List Token)}
    (h : AreLines ts runs) :
    ∃ gaps, gaps.length + 1 = runs.length ∧
      (∀ gap ∈ gaps, gap ∈ [] :: separators) ∧
      (∀ p ∈ runs.zip gaps, p.2 = [] ↔ endsItself p.1 = true) ∧
        weave runs gaps = ts := by
  induction h with
  | @last run goes => exact ⟨[], rfl, by simp, by simp, by simp [weave]⟩
  | @ended run ts t runs goes ends rest ih =>
    obtain ⟨gaps, count, known, empty, join⟩ := ih
    refine ⟨[] :: gaps, by simp [count], ?_, ?_, by simp [weave, join]⟩
    · exact List.forall_mem_cons.2 ⟨List.mem_cons_self, known⟩
    · rw [List.zip_cons_cons, List.forall_mem_cons]
      exact ⟨by simp [endsItself, ends], empty⟩
  | @broken run sep ts runs goes hsep rest ih =>
    obtain ⟨gaps, count, known, empty, join⟩ := ih
    refine ⟨sep :: gaps, by simp [count], ?_, ?_, by simp [weave, join]⟩
    · exact List.forall_mem_cons.2 ⟨List.mem_cons_of_mem _ hsep, known⟩
    · rw [List.zip_cons_cons, List.forall_mem_cons]
      refine ⟨?_, empty⟩
      have ne : sep ≠ [] := by
        rintro rfl
        simp [separators] at hsep
      simp [ne, endsItself_of_goes goes]

theorem meanings_separator {sep : List Token} (h : sep ∈ [] :: separators) :
    meanings sep = unlex sep := by
  revert sep
  decide

/-! ## A scan that knows tags only -/

/-- Cuts a markup into the markups of its lines, character by character, with
tags as a whole. -/
def scanLines : Text → List Text
  | [] => [[]]
  | '\r' :: '\n' :: s => [] :: scanLines s
  | c :: s =>
    if c = '\n' ∨ c = '\r' then [] :: scanLines s
    else
      match _h : Tag.read? (c :: s) with
      | some (t, rest) =>
        if t.endsLine then t.text :: scanLines rest
        else pushPiece t.text (scanLines rest)
      | none => pushPiece [c] (scanLines s)
termination_by s => s.length
decreasing_by
  · exact Nat.lt_succ_of_lt (Nat.lt_succ_self _)
  · exact Nat.lt_succ_self _
  · exact Tag.length_lt_of_read? _h
  · exact Tag.length_lt_of_read? _h
  · exact Nat.lt_succ_self _

/-- A character that comes first as a token comes first in the markup. -/
theorem head?_of_tokens {s : Text} {c : Char}
    (h : (tokens s).head? = some (.char c)) :
    s.head? = some c := by
  cases s with
  | nil => simp [tokens] at h
  | cons d s =>
    rw [tokens, List.head?_cons, Option.some.injEq] at h
    have join := Token.text_append_next d s
    rw [h] at join
    exact congrArg some (List.cons.inj join).1.symm

/-- The characters of an entity, read one by one, go to the line as the entity
does. -/
theorem pieces_of_entity {s rest : Text} {e : Entity}
    (read : Entity.readAfter? s = some (e, rest)) :
    pieces (tokens ('&' :: s)) = pushPiece ['&'] (pieces (tokens s)) := by
  obtain ⟨inside, whole, apart⟩ := tokens_of_entity read
  rw [whole, apart, pieces_map_char fun c hc => (inside c hc).2,
    ← pushPiece_append, pieces_cons (by simp)]
  rfl

theorem scanLines_eq_pieces (s : Text) : scanLines s = pieces (tokens s) := by
  fun_induction scanLines s with
  | case1 => rw [tokens, pieces]
  | case2 s ih =>
    rw [tokens_char rfl (by simp), tokens_char rfl (by simp), ih]
    rfl
  | case3 c s alone hbreak ih =>
    have tag : Tag.read? (c :: s) = none := by
      rcases hbreak with rfl | rfl <;> rfl
    have entity : c ≠ '&' := by rcases hbreak with rfl | rfl <;> decide
    have returnFeed : Token.char c = .char '\r' →
        (tokens s).head? ≠ some (.char '\n') := by
      rintro ⟨rfl⟩ feed
      obtain ⟨t, rfl⟩ := List.head?_eq_some_iff.1 (head?_of_tokens feed)
      exact alone t rfl rfl
    rw [tokens_char tag fun hc => absurd hc entity, pieces_cons returnFeed, ih]
    rcases hbreak with rfl | rfl <;> rfl
  | case4 c s alone unbroken t rest read ends ih =>
    rw [tokens_tag read, pieces_cons (by simp), ih]
    simp [Token.isBreak, Token.endsLine, Token.text, ends]
  | case5 c s alone unbroken t rest read ends ih =>
    rw [tokens_tag read, pieces_cons (by simp), ih]
    simp [Token.isBreak, Token.endsLine, Token.text, ends]
  | case6 c s alone unbroken none ih =>
    rw [not_or] at unbroken
    rw [ih]
    by_cases amp : c = '&'
    · subst amp
      cases read : Entity.readAfter? s with
      | none =>
        rw [tokens_char none fun _ => read, pieces_char unbroken.1 unbroken.2]
      | some found => exact (pieces_of_entity read).symm
    · rw [tokens_char none fun hc => absurd hc amp,
        pieces_char unbroken.1 unbroken.2]

/-! ## Lines and gaps -/

/-- Outside tags, no token of a line holds a line feed or a carriage return. -/
theorem IsLine.unbroken_text {run : List Token} (line : IsLine run)
    {after : Text} (lexed : Lexed run after) {t : Token} (ht : t ∈ run) :
    (∃ tag, t = .tag tag) ∨ '\n' ∉ t.text ∧ '\r' ∉ t.text := by
  have unbroken := line.unbroken t ht
  cases t with
  | tag t => exact .inl ⟨t, rfl⟩
  | entity e =>
    obtain ⟨front, back, rfl⟩ := List.append_of_mem ht
    cases lexed.of_append.2 with
    | cons first _ =>
      have sound : e.Sound := first
      exact .inr ⟨sound.not_mem_text (by decide) (by decide) (by decide),
        sound.not_mem_text (by decide) (by decide) (by decide)⟩
  | char c =>
    simp only [Token.isBreak, Bool.or_eq_false_iff,
      beq_eq_false_iff_ne] at unbroken
    exact .inr (by simpa [Token.text, eq_comm] using unbroken)

theorem endsItself_iff {run : List Token} :
    endsItself run = true ↔ ∃ t, run.getLast? = some (.tag t) ∧
      t.endsLine = true := by
  rw [endsItself]
  cases run.getLast? with
  | none => simp
  | some t => cases t <;> simp [Token.endsLine]

/-- The lines of a markup are those that a scan of its tags finds. With gaps
between them, which are line breaks, or nothing behind a tag that ends a line,
they make up the markup, and what they mean makes up what the markup means.
Outside tags no line holds a line feed or a carriage return. -/
theorem renderedLines_partition (markup : Text) :
    (renderedLines markup).map (·.markup) = scanLines markup ∧
      (∀ line ∈ renderedLines markup, ∀ t ∈ tokens line.markup,
        (∃ tag, t = .tag tag) ∨ '\n' ∉ t.text ∧ '\r' ∉ t.text) ∧
      ∃ gaps : List Text, gaps.length + 1 = (renderedLines markup).length ∧
        (∀ gap ∈ gaps, gap ∈ [[], ['\n'], ['\r'], ['\r', '\n']]) ∧
        (∀ p ∈ (renderedLines markup).zip gaps, p.2 = [] ↔
          ∃ t, (tokens p.1.markup).getLast? = some (.tag t) ∧
            t.endsLine = true) ∧
        weave ((renderedLines markup).map (·.markup)) gaps = markup ∧
        weave ((renderedLines markup).map (meaning ·.markup)) gaps =
          meaning markup := by
  obtain ⟨runs, lines, lexed, eq⟩ := exists_renderedLines markup
  obtain ⟨gaps, count, known, empty, join⟩ := lines.exists_gaps
  have reread {run : List Token} (hrun : run ∈ runs) :
      tokens (unlex run) = run := by
    obtain ⟨after, first⟩ := lexed.lexed_of_mem hrun
    exact first.tokens_unlex
  have gapsMean : gaps.map meanings = gaps.map unlex :=
    List.map_congr_left fun gap hgap => meanings_separator (known gap hgap)
  have runsMean :
      runs.map (fun run => meaning (unlex run)) = runs.map meanings := by
    apply List.map_congr_left
    intro run hrun
    rw [meaning, reread hrun]
    rfl
  refine ⟨?_, ?_, gaps.map unlex, by simp [eq, count], ?_, ?_, ?_, ?_⟩
  · rw [scanLines_eq_pieces, renderedLines, List.map_map]
    exact List.map_id _
  · rw [eq, List.forall_mem_map]
    intro run hrun t ht
    obtain ⟨after, first⟩ := lexed.lexed_of_mem hrun
    exact (lines.isLine run hrun).1.unbroken_text first (reread hrun ▸ ht)
  · rw [List.forall_mem_map]
    have written : ∀ gap ∈ [] :: separators,
        unlex gap ∈ [[], ['\n'], ['\r'], ['\r', '\n']] := by
      decide
    exact fun gap hgap => written gap (known gap hgap)
  · rw [eq, List.zip_map, List.forall_mem_map]
    intro p hp
    have written : ∀ gap ∈ [] :: separators, unlex gap = [] ↔ gap = [] := by
      decide
    have inside := List.of_mem_zip hp
    rw [← endsItself_iff]
    simp only [Prod.map, RenderedLine.ofRun]
    rw [reread inside.1, written p.2 (known p.2 inside.2), empty p hp]
  · rw [eq, List.map_map]
    have whole := congrArg unlex join
    rw [unlex_tokens, unlex, flatMap_weave] at whole
    exact whole
  · have whole := flatMap_weave Token.meaning runs gaps
    rw [join] at whole
    rw [eq, List.map_map, ← gapsMean]
    exact (congrArg (weave · _) runsMean).trans whole.symm

end Worksheet.Markup

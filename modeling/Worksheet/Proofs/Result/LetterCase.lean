import Mathlib.Data.List.Basic
import Worksheet.Proofs.Markup.LetterCase
import Worksheet.Proofs.Result.Tails
import Worksheet.Result.Extraction

/-!
# Results in any letter case

Results are the same in whatever letter case the names of tags are written,
except for a power whose end is written in another case: the search for it knows
lower case only.
-/

namespace Worksheet

open Text Markup

/-! ## Blocks -/

/-- Grouping looks at the texts of lines only. -/
theorem groupLines_map {f : RenderedLine → RenderedLine}
    (same : ∀ line, (f line).text = line.text) (lines : List RenderedLine) :
    groupLines (lines.map f) =
      ((groupLines lines).1.map f,
       (groupLines lines).2.map fun g => (g.1, g.2.map f)) := by
  induction lines with
  | nil => rfl
  | cons line lines ih =>
    rw [List.map_cons, groupLines, groupLines, ih, same]
    cases openingName? line.text <;> rfl

namespace Markup.Recasing

variable (φ : Recasing)

/-- Writes the names in the tags of a block in its way. -/
def onBlock (b : ResultBlock) : ResultBlock :=
  { b with markup := φ.write b.markup }

theorem joinRuns_map (runs : List (List Token)) :
    joinRuns (runs.map (List.map φ.onToken)) =
      (joinRuns runs).map φ.onToken := by
  induction runs with
  | nil => rfl
  | cons run runs ih =>
    cases runs with
    | nil => simp [joinRuns]
    | cons run' runs =>
      simp only [List.map_cons, joinRuns_cons_cons, List.map_append] at ih ⊢
      rw [ih]
      rfl

theorem textLines_write (output : Text) :
    textLines (φ.write output) = (textLines output).map φ.onLine := by
  rw [textLines, textLines, renderedLines_write, List.filter_map]
  rfl

theorem resultBlocks_write (output : Text) :
    resultBlocks (φ.write output) = (resultBlocks output).map φ.onBlock := by
  have eq (s : Text) :
      resultBlocks s = (groupLines (textLines s)).2.map fun g =>
        .ofLines g.1 g.2 := rfl
  rw [eq, eq, textLines_write, groupLines_map (f := φ.onLine) fun _ => rfl,
    List.map_map, List.map_map]
  apply List.map_congr_left
  intro g hg
  obtain ⟨runs, lexed, -, lines, shown⟩ := exists_runs_of_group hg
  have text (run : List Token) :
      (RenderedLine.ofRun (run.map φ.onToken)).text =
        (RenderedLine.ofRun run).text := by
    rw [RenderedLine.ofRun, RenderedLine.ofRun, meanings_map]
  have shown' : ∀ run ∈ runs.map (List.map φ.onToken),
      (RenderedLine.ofRun run).text ≠ [] := by
    rw [List.forall_mem_map]
    intro run hrun
    rw [text]
    exact shown run hrun
  have lines' : g.2.map φ.onLine =
      (runs.map (List.map φ.onToken)).map RenderedLine.ofRun := by
    rw [lines, List.map_map, List.map_map]
    apply List.map_congr_left
    intro run hrun
    obtain ⟨after, first⟩ := lexed.lexed_of_mem hrun
    exact φ.onLine_ofRun first
  change ResultBlock.ofLines g.1 (g.2.map φ.onLine) =
    φ.onBlock (ResultBlock.ofLines g.1 g.2)
  rw [lines', ofLines_map_ofRun shown', lines, ofLines_map_ofRun shown, onBlock,
    φ.write_unlex lexed.lexed, joinRuns_map, List.map_map]
  simp only [Function.comp_def, text]

end Markup.Recasing

/-! ## Units of blocks -/

namespace Markup

/-- The tokens of the row behind the last equals sign. -/
def tailTokens (markup : Text) : List Token :=
  ((afterEquals? (tokens markup)).getD []).takeWhile (!·.text.contains '\n')

theorem readsAs_tail (markup : Text) :
    ReadsAs (Markup.tail markup) (tailTokens markup) := by
  rw [Markup.tail, tailTokens]
  cases found : afterEquals? (tokens markup) with
  | none => exact .rest (by simp)
  | some ts =>
    obtain ⟨front, sign, whole, -⟩ := exists_of_afterEquals? found
    have lexed := lexed_tokens markup
    rw [whole, List.append_cons] at lexed
    have read := (lexed.of_append.2.readsAs (by simp)).row
    rwa [List.append_nil] at read

namespace Recasing

variable (φ : Recasing)

theorem afterEquals?_map (ts : List Token) :
    afterEquals? (ts.map φ.onToken) =
      (afterEquals? ts).map (List.map φ.onToken) := by
  induction ts with
  | nil => rfl
  | cons t ts ih =>
    rw [List.map_cons, afterEquals?, afterEquals?, ih]
    simp only [onToken_eq_char_iff]
    cases afterEquals? ts with
    | some rest => rfl
    | none =>
      simp only [Option.map_none]
      split <;> rfl

theorem contains_text_onToken {c : Char} (other : c.isAlpha = false)
    (t : Token) :
    (φ.onToken t).text.contains c = t.text.contains c := by
  have letters := (φ.alike_onToken t).text
  rw [Bool.eq_iff_iff, List.contains_iff_mem, List.contains_iff_mem]
  exact ⟨letters.symm.mem other, letters.mem other⟩

theorem tailTokens_write (markup : Text) :
    tailTokens (φ.write markup) = (tailTokens markup).map φ.onToken := by
  have feed (t : Token) :
      (!(φ.onToken t).text.contains '\n') = !t.text.contains '\n' := by
    rw [φ.contains_text_onToken (by decide)]
  rw [tailTokens, tailTokens, tokens_write, afterEquals?_map]
  cases afterEquals? (tokens markup) with
  | none => rfl
  | some ts =>
    simp only [Option.map_some, Option.getD_some, List.takeWhile_map,
      Function.comp_def, feed]

variable {φ}

theorem SparesPowers.unit_onBlock (spares : φ.SparesPowers) (v : Vocabulary)
    (b : ResultBlock) :
    (φ.onBlock b).unit v = b.unit v := by
  have drawn := readsAs_tail b.markup
  have drawn' := readsAs_tail (φ.write b.markup)
  rw [tailTokens_write] at drawn'
  have fraction := spares.fractionUnit? drawn drawn'
  have italic := spares.italicUnit? drawn drawn'
  have tail : (φ.onBlock b).tail = b.tail := rfl
  rw [ResultBlock.unit, ResultBlock.unit, onBlock, fraction, italic]
  rfl

end Recasing

end Markup

/-! ## Letter case of markups -/

/-- Markups that differ in the letter case of the names in tags mean the same,
and have lines and results with the same texts and values. Their units are the
same up to the powers, and the same with the powers when no tag that differs is
one at which the search for the end of a power stops. -/
theorem letter_case_insensitive {m m' : Text} (h : Recased m m') :
    meaning m = meaning m' ∧ (renderedLines m).map (·.text) =
      (renderedLines m').map (·.text) ∧
      (resultBlocks m).map (fun b => (b.name, b.text, b.value)) =
        (resultBlocks m').map (fun b => (b.name, b.text, b.value)) ∧
      SameUpToPower (fractionUnit? m) (fractionUnit? m') ∧
      SameUpToPower (italicUnit? m) (italicUnit? m') ∧
      ((∀ p ∈ (tokens m).zip (tokens m'), p.1 ≠ p.2 →
        p.1.endsPower = false ∧ p.2.endsPower = false) →
        fractionUnit? m = fractionUnit? m' ∧ italicUnit? m = italicUnit? m' ∧
          ∀ v, (resultBlocks m).map (·.unit v) =
            (resultBlocks m').map (·.unit v)) := by
  have capitals : Recasing.capitals.write m = Recasing.capitals.write m' :=
    Recasing.capitals.write_eq h fun p _ recased =>
      recased.alike.onToken_capitals
  -- What a common form keeps, both markups have in common.
  have common {α : Type} {f : Text → α}
      (keep : ∀ s, f (Recasing.capitals.write s) = f s) : f m = f m' := by
    rw [← keep m, capitals, keep]
  have lines (s : Text) :
      (renderedLines (Recasing.capitals.write s)).map (·.text) =
        (renderedLines s).map (·.text) := by
    rw [Recasing.renderedLines_write, List.map_map]
    rfl
  have blocks (s : Text) :
      (resultBlocks (Recasing.capitals.write s)).map
        (fun b => (b.name, b.text, b.value)) =
        (resultBlocks s).map fun b => (b.name, b.text, b.value) := by
    rw [Recasing.resultBlocks_write, List.map_map]
    rfl
  refine ⟨common Recasing.capitals.meaning_write,
    common (f := fun s => (renderedLines s).map (·.text)) lines,
    common (f := fun s => (resultBlocks s).map fun b =>
      (b.name, b.text, b.value)) blocks, ?_, ?_, ?_⟩
  · rw [fractionUnit?_eq, fractionUnit?_eq]
    exact sameUpToPower_of_map_fst
      (common (f := fun s => (fractionReading? s).map Prod.fst)
        Recasing.capitals.fractionReading?_write)
  · rw [italicUnit?_eq, italicUnit?_eq]
    exact sameUpToPower_of_map_fst
      (common (f := fun s => (italicReading? s).map Prod.fst)
        Recasing.capitals.italicReading?_write)
  intro spared
  have spares := Recasing.sparesPowers_sparing
  have sparing : Recasing.sparing.write m = Recasing.sparing.write m' :=
    Recasing.sparing.write_eq h fun p hp recased =>
      recased.alike.onToken_sparing (spared p hp)
  have fraction (s : Text) :
      fractionUnit? (Recasing.sparing.write s) = fractionUnit? s :=
    spares.fractionUnit? (readsAs_tokens s) (Recasing.sparing.readsAs_write s)
  have italic (s : Text) :
      italicUnit? (Recasing.sparing.write s) = italicUnit? s :=
    spares.italicUnit? (readsAs_tokens s) (Recasing.sparing.readsAs_write s)
  have units (v : Vocabulary) (s : Text) :
      (resultBlocks (Recasing.sparing.write s)).map (·.unit v) =
        (resultBlocks s).map (·.unit v) := by
    rw [Recasing.resultBlocks_write, List.map_map]
    exact List.map_congr_left fun b _ => spares.unit_onBlock v b
  refine ⟨?_, ?_, fun v => ?_⟩
  · rw [← fraction m, sparing, fraction]
  · rw [← italic m, sparing, italic]
  · rw [← units v m, sparing, units]

/-- Only the end of the power, which is the same in both, is in lower case. -/
theorem letter_case_insensitive_sample :
    italicUnit? "<P>q = 2 <I>kN</I><Sup>2</sup></P>".toList =
      italicUnit? "<p>q = 2 <i>kN</i><SUP>2</sup></p>".toList := by
  have recased : Recased "<P>q = 2 <I>kN</I><Sup>2</sup></P>".toList
      "<p>q = 2 <i>kN</i><SUP>2</sup></p>".toList := by
    decide +kernel
  exact ((letter_case_insensitive recased).2.2.2.2.2 (by decide +kernel)).2.1

/-- An end of a power in capitals is not found, so that a square metre becomes a
metre. -/
theorem letter_case_of_power_end :
    ¬ ∀ m m' : Text, Recased m m' →
      meaning m = meaning m' ∧ (renderedLines m).map (·.text) =
        (renderedLines m').map (·.text) ∧
        fractionUnit? m = fractionUnit? m' ∧
        italicUnit? m = italicUnit? m' := by
  intro same
  have recased :
      Recased "<i>m</i><sup>2</sup>".toList "<i>m</i><sup>2</SUP>".toList := by
    decide +kernel
  have units := (same _ _ recased).2.2.2
  revert units
  decide +kernel

end Worksheet

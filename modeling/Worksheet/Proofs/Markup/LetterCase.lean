import Mathlib.Data.List.Basic
import Worksheet.Proofs.Markup.Lines
import Worksheet.Proofs.Markup.Reading
import Worksheet.Proofs.Markup.Recasing

/-!
# Lines and units in any letter case

Writing the names in tags in other letter cases changes neither the lines of a
markup nor what they mean. It does not change the units in the markup either, as
long as the ends of powers stay as they are written.
-/

namespace Worksheet.Markup

open Text

/-! ## Lines -/

namespace Recasing

variable (φ : Recasing)

@[simp] theorem meaning_onToken (t : Token) :
    (φ.onToken t).meaning = t.meaning := by
  cases t with
  | tag t => exact (φ.alike t).meaning.symm
  | entity e => rfl
  | char c => rfl

@[simp] theorem endsLine_onToken (t : Token) :
    (φ.onToken t).endsLine = t.endsLine := by
  cases t with
  | tag t => exact (φ.alike t).endsLine.symm
  | entity e => rfl
  | char c => rfl

@[simp] theorem isBreak_onToken (t : Token) :
    (φ.onToken t).isBreak = t.isBreak := by cases t <;> rfl

@[simp] theorem onToken_eq_char_iff {t : Token} {c : Char} :
    φ.onToken t = .char c ↔ t = .char c := by
  cases t <;> simp [onToken]

@[simp] theorem meanings_map (ts : List Token) :
    meanings (ts.map φ.onToken) = meanings ts := by
  simp [meanings, List.flatMap_map]

theorem meaning_write (markup : Text) :
    meaning (φ.write markup) = meaning markup := by
  rw [meaning, tokens_write]
  exact φ.meanings_map (tokens markup)

theorem lineRuns_map (ts : List Token) :
    lineRuns (ts.map φ.onToken) = (lineRuns ts).map (List.map φ.onToken) := by
  have push (t : Token) (runs : List (List Token)) :
      pushToken (φ.onToken t) (runs.map (List.map φ.onToken)) =
        (pushToken t runs).map (List.map φ.onToken) := by
    cases runs <;> rfl
  induction ts with
  | nil => rfl
  | cons t ts ih =>
    have feed : (ts.map φ.onToken).head? = some (.char '\n') ↔
        ts.head? = some (.char '\n') := by
      simp [List.head?_map]
    simp only [List.map_cons, lineRuns, isBreak_onToken, endsLine_onToken,
      onToken_eq_char_iff, feed, ih, push]
    split
    · split <;> rfl
    · split <;> rfl

/-- Writes the names in the tags of a line in its way. -/
def onLine (line : RenderedLine) : RenderedLine :=
  { line with markup := φ.write line.markup }

theorem onLine_ofRun {run : List Token} {after : Text} (h : Lexed run after) :
    φ.onLine (.ofRun run) = .ofRun (run.map φ.onToken) := by
  rw [onLine, RenderedLine.ofRun, RenderedLine.ofRun, meanings_map,
    φ.write_unlex h]

theorem renderedLines_write (markup : Text) :
    renderedLines (φ.write markup) = (renderedLines markup).map φ.onLine := by
  have lexed :=
    (areLines_lineRuns (tokens markup)).1.lexedLines (lexed_tokens markup)
  rw [renderedLines_eq, renderedLines_eq, tokens_write, lineRuns_map,
    List.map_map, List.map_map]
  apply List.map_congr_left
  intro run hrun
  obtain ⟨after, first⟩ := lexed.lexed_of_mem hrun
  exact (φ.onLine_ofRun first).symm

end Recasing

/-! ## Forests -/

namespace Forest

variable (φ : Recasing)

/-- Writes the names in the tags of a forest. -/
def recase : Forest → Forest
  | nil => nil
  | leaf token rest => leaf (φ.onToken token) rest.recase
  | span opening inside closing rest =>
    span (φ.onTag opening) inside.recase (φ.onTag closing) rest.recase

theorem toTokens_recase (f : Forest) :
    (f.recase φ).toTokens = f.toTokens.map φ.onToken := by
  induction f with
  | nil => rfl
  | leaf token rest ih => rw [recase, toTokens, ih]; rfl
  | span opening inside closing rest ihInside ihRest =>
    rw [recase, toTokens, ihInside, ihRest]
    simp [toTokens, Recasing.onToken]

theorem Nested.recase {f : Forest} (h : f.Nested) : (f.recase φ).Nested := by
  induction f with
  | nil => trivial
  | leaf token rest ih =>
    refine ⟨?_, ih h.2⟩
    rw [← h.1]
    cases token with
    | tag t =>
      rw [Recasing.onToken, Token.marksSpan, Token.marksSpan, Tag.marksSpan,
        Tag.marksSpan, (φ.alike t).opens, (φ.alike t).closes]
    | entity e => rfl
    | char c => rfl
  | span opening inside closing rest ihInside ihRest =>
    obtain ⟨opens, closes, inner, later⟩ := h
    exact ⟨by rw [← (φ.alike opening).opens, opens],
      by rw [← (φ.alike closing).closes, closes], ihInside inner, ihRest later⟩

theorem children_recase (f : Forest) :
    (f.recase φ).children =
      f.children.map fun child => (φ.onTag child.1, child.2.recase φ) := by
  induction f with
  | nil => rfl
  | leaf token rest ih => exact ih
  | span opening inside closing rest ihInside ihRest =>
    rw [recase, children, ihRest]; rfl

/-- Numerator and denominator are cut out of the forest. -/
theorem infix_of_cutAtRule? {f above below : Forest}
    (h : f.cutAtRule? = some (above, below)) :
    above.toTokens <:+: f.toTokens ∧ below.toTokens <:+: f.toTokens := by
  have cut : above.toTokens <+: f.toTokens ∧ below.toTokens <:+ f.toTokens := by
    induction f generalizing above with
    | nil => cases h
    | leaf token rest ih =>
      obtain ⟨⟨above', below'⟩, cut, sides⟩ := Option.map_eq_some_iff.1 h
      cases sides
      obtain ⟨front, back⟩ := ih cut
      exact ⟨(List.prefix_cons_inj token).2 front,
        back.trans (List.suffix_cons _ _)⟩
    | span opening inside closing rest ihInside ihRest =>
      have suffix :
          rest.toTokens <:+ (span opening inside closing rest).toTokens :=
        ⟨.tag opening :: (inside.toTokens ++ [.tag closing]),
          by simp [toTokens]⟩
      rw [cutAtRule?] at h
      split at h
      · cases h
        exact ⟨List.nil_prefix, suffix⟩
      · obtain ⟨⟨above', below'⟩, cut, sides⟩ := Option.map_eq_some_iff.1 h
        cases sides
        obtain ⟨front, back⟩ := ihRest cut
        refine ⟨?_, back.trans suffix⟩
        rw [toTokens, toTokens, List.prefix_cons_inj,
          List.prefix_append_right_inj, List.prefix_cons_inj]
        exact front
  exact ⟨cut.1.isInfix, cut.2.isInfix⟩

theorem infix_of_mem_children {f : Forest} {child : Tag × Forest}
    (h : child ∈ f.children) :
    child.2.toTokens <:+: f.toTokens := by
  induction f with
  | nil => cases h
  | leaf token rest ih => exact (ih h).trans (List.suffix_cons _ _).isInfix
  | span opening inside closing rest ihInside ihRest =>
    rcases List.mem_cons.1 h with rfl | h
    · exact ⟨[.tag opening], .tag closing :: rest.toTokens, by simp [toTokens]⟩
    · refine (ihRest h).trans
        ⟨.tag opening :: (inside.toTokens ++ [.tag closing]), [], ?_⟩
      simp [toTokens]

theorem infix_of_fraction? {f above below : Forest}
    (h : f.fraction? = some (above, below)) :
    above.toTokens <:+: f.toTokens ∧ below.toTokens <:+: f.toTokens := by
  rw [fraction?] at h
  split at h
  · next cut =>
    cases h
    exact infix_of_cutAtRule? cut
  · split at h
    · next first numerator second denominator rest children =>
      cases h
      have numerator : (first, above) ∈ f.children := by simp [children]
      have denominator : (second, below) ∈ f.children := by simp [children]
      exact ⟨infix_of_mem_children numerator, infix_of_mem_children denominator⟩
    · cases h

section

variable {f : Forest} (reread : ∃ after, Lexed f.toTokens after)

include reread

theorem unitText_recase : unitText (f.recase φ).text = unitText f.text := by
  obtain ⟨after, lexed⟩ := reread
  rw [text, toTokens_recase, ← φ.write_unlex lexed, unitText, φ.meaning_write]
  rfl

theorem cutAtRule?_recase :
    (f.recase φ).cutAtRule? = f.cutAtRule?.map fun (above, below) =>
      (above.recase φ, below.recase φ) := by
  induction f with
  | nil => rfl
  | leaf token rest ih =>
    obtain ⟨after, lexed⟩ := reread
    cases lexed with
    | cons _ lexed =>
      rw [recase, cutAtRule?, ih ⟨after, lexed⟩, cutAtRule?, Option.map_map,
        Option.map_map]
      rfl
  | span opening inside closing rest ihInside ihRest =>
    obtain ⟨after, lexed⟩ := reread
    cases lexed with
    | cons _ lexed =>
      obtain ⟨first, later⟩ := lexed.of_append
      cases later with
      | cons _ later =>
        have rule : isRule (φ.onTag opening) (inside.recase φ) =
            isRule opening inside := by
          rw [isRule, isRule, (φ.alike opening).classes,
            unitText_recase φ ⟨_, first⟩]
        rw [recase, cutAtRule?, rule, ihRest ⟨after, later⟩, cutAtRule?]
        split
        · rfl
        · rw [Option.map_map, Option.map_map]
          rfl

theorem fraction?_recase :
    (f.recase φ).fraction? = f.fraction?.map fun (above, below) =>
      (above.recase φ, below.recase φ) := by
  rw [fraction?, fraction?, cutAtRule?_recase φ reread, children_recase]
  cases f.cutAtRule? with
  | some sides => rfl
  | none => rcases f.children with _ | ⟨child, _ | ⟨child', children⟩⟩ <;> rfl

end

end Forest

/-! ## Units -/

namespace Recasing

/-- No token at which a power ends is written in another way, and none becomes
such a token. -/
def SparesPowers (φ : Recasing) : Prop :=
  ∀ t : Token, t.endsPower = true ∨ (φ.onToken t).endsPower = true →
    φ.onToken t = t

variable {φ : Recasing}

theorem SparesPowers.endsPower_onToken (spares : φ.SparesPowers) (t : Token) :
    (φ.onToken t).endsPower = t.endsPower := by
  by_cases either : t.endsPower = true ∨ (φ.onToken t).endsPower = true
  · rw [spares t either]
  · rw [not_or, Bool.not_eq_true, Bool.not_eq_true] at either
    rw [either.1, either.2]

theorem SparesPowers.endless_map (spares : φ.SparesPowers) {ts : List Token}
    (endless : ∀ t ∈ ts, t.endsPower = false) :
    ∀ t ∈ ts.map φ.onToken, t.endsPower = false := by
  rw [List.forall_mem_map]
  intro t ht
  rw [spares.endsPower_onToken, endless t ht]

variable (φ) in
theorem unitText_append {ts : List Token} {s : Text} (lexed : Lexed ts s) :
    unitText (unlex (ts.map φ.onToken) ++ s) = unitText (unlex ts ++ s) := by
  have same :
      meaning (unlex (ts.map φ.onToken) ++ s) = meaning (unlex ts ++ s) := by
    rw [meaning, meaning, (φ.lexed_map lexed).tokens_append,
      lexed.tokens_append]
    simp [List.flatMap_map]
  rw [unitText, unitText, same]

variable (φ) in
theorem forall_tag_map {p : Tag → Bool} (same : ∀ t, p (φ.onTag t) = p t)
    {ts : List Token} (h : ∀ t, .tag t ∈ ts → p t = false) :
    ∀ t, .tag t ∈ ts.map φ.onToken → p t = false := by
  intro t ht
  obtain ⟨u, hu, written⟩ := List.mem_map.1 ht
  cases u with
  | tag u =>
    obtain rfl := Token.tag.inj written
    rw [same, h u hu]
  | entity e => cases written
  | char c => cases written

variable (φ) in
theorem isSome_readSpan?_map (ts : List Token) :
    (readSpan? (ts.map φ.onToken)).isSome = (readSpan? ts).isSome := by
  apply isSome_readSpan?_congr
  induction ts with
  | nil => rfl
  | cons t ts ih =>
    cases t with
    | tag t =>
      have mark : (φ.onTag t).spanMark = t.spanMark := by
        rw [Tag.spanMark, Tag.spanMark, (φ.alike t).opens, (φ.alike t).closes]
      exact congrArg₂ List.cons mark ih
    | entity e => exact ih
    | char c => exact ih

section

variable {markup markup' : Text} {ts : List Token} (spares : φ.SparesPowers)
  (h : ReadsAs markup ts) (h' : ReadsAs markup' (ts.map φ.onToken))

include spares h h'

/-- What is cut off at the end of a power shows the same. -/
theorem SparesPowers.cutAt? :
    ((Text.cutAt? "</sup>".toList markup').map Prod.fst).map unitText =
      ((Text.cutAt? "</sup>".toList markup).map Prod.fst).map unitText := by
  cases found : ts.find? Token.endsPower with
  | none =>
    have endless : ∀ t ∈ ts, t.endsPower = false := by simpa using found
    rw [h.cutAt?_none endless, h'.cutAt?_none (spares.endless_map endless)]
  | some last =>
    obtain ⟨ends, front, back, rfl, before⟩ :=
      List.find?_eq_some_iff_append.1 found
    have endless : ∀ t ∈ front, t.endsPower = false := by simpa using before
    obtain ⟨s, written⟩ := Token.endsPower_iff.1 ends
    rw [List.map_append, List.map_cons, spares last (.inl ends)] at h'
    rw [h.cutAt?_first endless written,
      h'.cutAt?_first (spares.endless_map endless) written, Option.map_some,
      Option.map_some]
    obtain ⟨after, -, lexed, later⟩ := h.of_append
    cases later with
    | cons _ _ =>
      rw [written, List.append_assoc] at lexed
      rw [φ.unitText_append lexed.shorten]

/-- The exponent shows the same in all ways of writing that spare the ends of
powers. -/
theorem SparesPowers.exponent? :
    (Markup.exponent? markup').map unitText =
      (Markup.exponent? markup).map unitText := by
  -- The induction goes along the blanks in front of the raised script.
  induction ts generalizing markup markup' with
  | nil =>
    cases h with
    | rest unclosed =>
      cases h' with
      | rest unclosed' =>
        rw [exponent?_of_unclosed unclosed, exponent?_of_unclosed unclosed']
  | cons t ts ih =>
    cases h with
    | cons first rest =>
      cases h' with
      | cons first' rest' =>
        cases t with
        | tag t =>
          rw [Token.text, exponent?_tag first, onToken, Token.text,
            exponent?_tag first', ← (φ.alike t).opens]
          split
          · exact spares.cutAt? rest rest'
          · rfl
        | entity e =>
          rw [exponent?_untagged first (by simp) (by simp),
            exponent?_untagged first' (by simp [onToken])
              (by simp [onToken])]
        | char c =>
          cases blank : isBlank c with
          | true =>
            have same : (φ.onToken (.char c)).text = [c] := rfl
            rw [same, Token.text, List.singleton_append, List.singleton_append,
              exponent?_blank blank, exponent?_blank blank]
            exact ih rest rest'
          | false =>
            rw [exponent?_untagged first (by simp) (by simp [blank]),
              exponent?_untagged first' (by simp [onToken])
                (by simp [onToken, blank])]

theorem SparesPowers.power : Markup.power markup' = Markup.power markup := by
  have shown (m : Text) : Markup.power m =
      ((Markup.exponent? m).map unitText).elim [] fun exponent =>
        if exponent.isEmpty then [] else '^' :: exponent := by
    rw [power_eq]
    cases Markup.exponent? m <;> rfl
  rw [shown, shown, spares.exponent? h h']

end

/-- What is read from two markups: the same unit, and rests behind it that
differ in the way of writing. -/
inductive ReadAlike (φ : Recasing) :
    Option (Text × Text) → Option (Text × Text) → Prop where
  | none : ReadAlike φ none none
  | some {unit s s' : Text} {ts : List Token} (rest : ReadsAs s ts)
    (rest' : ReadsAs s' (ts.map φ.onToken)) :
    ReadAlike φ (some (unit, s)) (some (unit, s'))

theorem ReadAlike.map_fst {r r' : Option (Text × Text)} (h : φ.ReadAlike r r') :
    r'.map Prod.fst = r.map Prod.fst := by
  cases h <;> rfl

theorem ReadAlike.map_power {r r' : Option (Text × Text)} (h : φ.ReadAlike r r')
    (spares : φ.SparesPowers) :
    (r'.map fun (unit, after) => unit ++ Markup.power after) =
      r.map fun (unit, after) => unit ++ Markup.power after := by
  cases h with
  | none => rfl
  | some rest rest' => simp only [Option.map_some, spares.power rest rest']

section

variable {markup markup' : Text} {ts : List Token} (h : ReadsAs markup ts)
  (h' : ReadsAs markup' (ts.map φ.onToken))

include h h'

theorem fractionReading?_alike :
    φ.ReadAlike (fractionReading? markup) (fractionReading? markup') := by
  have same (t : Tag) : (φ.onTag t).opensFraction = t.opensFraction := by
    rw [Tag.opensFraction, Tag.opensFraction, (φ.alike t).opens,
      (φ.alike t).classes]
  rcases exists_last_tag Tag.opensFraction ts with
    plain | ⟨front, opening, back, rfl, opens, last⟩
  · rw [h.fractionReading?_none plain,
      h'.fractionReading?_none (φ.forall_tag_map same plain)]
    exact .none
  rw [List.map_append, List.map_cons] at h'
  have opens' := (same opening).trans opens
  cases read : (readSpan? back).isSome with
  | false =>
    -- The span of the last fraction is open to the end in both markups.
    have read' := (φ.isSome_readSpan?_map back).trans read
    rw [h.fractionReading?_unread opens last read,
      h'.fractionReading?_unread opens' (φ.forall_tag_map same last) read']
    exact .none
  | true =>
    obtain ⟨f, closing, after, nested, closes, rfl⟩ :=
      exists_forest_of_isSome read
    have last := (forall_tag_around.1 last).2
    have last' := φ.forall_tag_map same last
    have closes' := ((φ.alike closing).closes _).symm.trans closes
    rw [List.map_append, List.map_cons, ← Forest.toTokens_recase] at h'
    rw [List.map_append, ← Forest.toTokens_recase] at last'
    obtain ⟨s, rest, unit⟩ := h.fractionReading?_forest opens nested closes last
    obtain ⟨s', rest', unit'⟩ :=
      h'.fractionReading?_forest opens' (nested.recase φ) closes' last'
    have reread {us : List Token} (inside : us <:+: f.toTokens) :
        ∃ w, Lexed us w :=
      h.lexed_of_infix
        (inside.trans ⟨front ++ [.tag opening], .tag closing :: after, by simp⟩)
    rw [unit, unit', Forest.fraction?_recase φ (reread List.infix_rfl)]
    cases fraction : f.fraction? with
    | none => exact .none
    | some sides =>
      obtain ⟨above, below⟩ := sides
      obtain ⟨numerator, denominator⟩ := Forest.infix_of_fraction? fraction
      have base : fractionBase? (above.recase φ).text (below.recase φ).text =
          fractionBase? above.text below.text := by
        simp only [fractionBase?, Forest.unitText_recase φ (reread numerator),
          Forest.unitText_recase φ (reread denominator)]
      simp only [Option.map_some, Option.bind_some, base]
      cases fractionBase? above.text below.text with
      | none => exact .none
      | some unit => exact .some rest rest'

theorem italicReading?_alike :
    φ.ReadAlike (italicReading? markup) (italicReading? markup') := by
  have opensSame (t : Tag) := ((φ.alike t).opens ['i']).symm
  have closesSame (t : Tag) := ((φ.alike t).closes ['i']).symm
  rcases exists_last_tag (·.opens ['i']) ts with
    plain | ⟨front, opening, back, rfl, opens, last⟩
  · rw [h.italicReading?_none plain,
      h'.italicReading?_none (φ.forall_tag_map opensSame plain)]
    exact .none
  rw [List.map_append, List.map_cons] at h'
  have opens' := (opensSame opening).trans opens
  rcases exists_first_tag (·.closes ['i']) back with
    unclosed | ⟨inside, closing, after, rfl, closes, first⟩
  · rw [h.italicReading?_unread opens last unclosed,
      h'.italicReading?_unread opens' (φ.forall_tag_map opensSame last)
        (φ.forall_tag_map closesSame unclosed)]
    exact .none
  have last := (forall_tag_around.1 last).2
  have last' := φ.forall_tag_map opensSame last
  rw [List.map_append, List.map_cons] at h'
  rw [List.map_append] at last'
  obtain ⟨s, rest, unit⟩ := h.italicReading?_closed opens closes first last
  obtain ⟨s', rest', unit'⟩ :=
    h'.italicReading?_closed opens' ((closesSame closing).trans closes)
      (φ.forall_tag_map closesSame first) last'
  have within :
      inside <:+: front ++ .tag opening :: (inside ++ .tag closing :: after) :=
    ⟨front ++ [.tag opening], .tag closing :: after, by simp⟩
  obtain ⟨w, lexed⟩ := h.lexed_of_infix within
  have shown :
      unitText (unlex (inside.map φ.onToken)) = unitText (unlex inside) := by
    have alone := φ.unitText_append (s := []) lexed.shorten
    rwa [List.append_nil, List.append_nil] at alone
  rw [unit, unit', shown]
  split
  · exact .none
  · exact .some rest rest'

theorem SparesPowers.fractionUnit? (spares : φ.SparesPowers) :
    Markup.fractionUnit? markup' = Markup.fractionUnit? markup := by
  rw [fractionUnit?_eq, fractionUnit?_eq,
    (fractionReading?_alike h h').map_power spares]

theorem SparesPowers.italicUnit? (spares : φ.SparesPowers) :
    Markup.italicUnit? markup' = Markup.italicUnit? markup := by
  rw [italicUnit?_eq, italicUnit?_eq,
    (italicReading?_alike h h').map_power spares]

end

section

variable (φ) (markup : Text)

theorem readsAs_write :
    ReadsAs (φ.write markup) ((tokens markup).map φ.onToken) := by
  rw [← tokens_write]
  exact readsAs_tokens _

theorem fractionReading?_write :
    (fractionReading? (φ.write markup)).map Prod.fst =
      (fractionReading? markup).map Prod.fst :=
  (fractionReading?_alike (readsAs_tokens markup)
    (φ.readsAs_write markup)).map_fst

theorem italicReading?_write :
    (italicReading? (φ.write markup)).map Prod.fst =
      (italicReading? markup).map Prod.fst :=
  (italicReading?_alike (readsAs_tokens markup)
    (φ.readsAs_write markup)).map_fst

end

end Recasing

/-- The units are the same but for the powers behind them. -/
def SameUpToPower (u u' : Option Text) : Prop :=
  ∃ (unit : Option Text) (p p' : Text), u = unit.map (· ++ p) ∧
    u' = unit.map (· ++ p') ∧
    p.head?.all (· == '^') = true ∧ p'.head?.all (· == '^') = true

theorem head?_power (markup : Text) :
    (power markup).head?.all (· == '^') = true := by
  rcases power_cases markup with ⟨exponent, -, -, eq⟩ | ⟨-, eq⟩ <;>
    rw [eq] <;> rfl

theorem sameUpToPower_of_map_fst {r r' : Option (Text × Text)}
    (h : r.map Prod.fst = r'.map Prod.fst) :
    SameUpToPower (r.map fun (unit, after) => unit ++ power after)
      (r'.map fun (unit, after) => unit ++ power after) := by
  cases r with
  | none =>
    obtain rfl : r' = none := Option.map_eq_none_iff.1 h.symm
    exact ⟨none, [], [], rfl, rfl, rfl, rfl⟩
  | some read =>
    obtain ⟨read', rfl, same⟩ := Option.map_eq_some_iff.1 h.symm
    refine ⟨some read.1, power read.2, power read'.2, rfl, ?_, head?_power _,
      head?_power _⟩
    rw [← same]
    rfl

/-! ## Capitals that spare the ends of powers -/

/-- No power ends at a name in capitals: where one ends at the tag in capitals,
it ends behind the name. -/
theorem endsPower_of_inCapitals {t : Tag}
    (h : (Token.tag t.inCapitals).endsPower = true) :
    (Token.tag t).endsPower = true := by
  rcases List.eq_nil_or_concat' (t.label.takeWhile Char.isAlphanum) with
    unnamed | ⟨front, last, named⟩
  · have same : t.inCapitals = t := by
      conv_rhs => rw [← Tag.ofName_read t]
      rw [Tag.inCapitals, unnamed, List.map_nil]
    rwa [same] at h
  have written (name : Text) : (Tag.ofName t.isClosing name t.attributes).text =
      '<' :: ((if t.isClosing then ['/'] else []) ++ name) ++
        (t.attributes ++ ['>']) := by
    simp [Tag.text, Tag.ofName]
  -- The mark would have to go over the last character of the name, but holds
  -- neither capitals nor digits.
  have outside : last.toUpper ∉ "</sup>".toList := by
    have letter : last.isAlphanum = true :=
      List.all_eq_true.1 (List.all_takeWhile (p := Char.isAlphanum)
        (l := t.label)) last (by simp [named])
    have checked :=
      ascii_check (f := fun c => !c.isAlphanum ||
        !"</sup>".toList.contains c.toUpper)
        (by decide +kernel) (lt_of_isAlphanum letter)
    simpa [letter] using checked
  have behind : "</sup>".toList <:+ t.attributes ++ ['>'] := by
    rw [Token.endsPower, List.isSuffixOf_iff_suffix] at h
    have whole : (Token.tag t.inCapitals).text =
        ('<' :: ((if t.isClosing then ['/'] else []) ++ front.map Char.toUpper)) ++
          last.toUpper :: (t.attributes ++ ['>']) := by
      rw [Token.text, Tag.inCapitals, named, written]
      simp
    rw [whole] at h
    rcases List.suffix_or_suffix_of_suffix h (List.suffix_append _ _) with
      inside | longer
    · rcases List.suffix_cons_iff.1 inside with same | inside
      · exact absurd (by rw [same]; exact List.mem_cons_self) outside
      · exact inside
    · exact absurd (longer.subset List.mem_cons_self) outside
  rw [Token.endsPower, List.isSuffixOf_iff_suffix, Token.text,
    ← Tag.ofName_read t, written]
  exact behind.trans (List.suffix_append _ _)

/-- Writes names in capitals, except in the tags at which powers end. -/
def Recasing.sparing : Recasing where
  onTag t := if (Token.tag t).endsPower then t else t.inCapitals
  alike t := by
    split
    · exact ⟨rfl, rfl, rfl⟩
    · exact t.alike_inCapitals

theorem Recasing.sparesPowers_sparing : Recasing.sparing.SparesPowers := by
  intro t either
  cases t with
  | entity e => rfl
  | char c => rfl
  | tag t =>
    have ends : (Token.tag t).endsPower = true := by
      rcases either with ends | ends
      · exact ends
      · by_contra other
        have capitals : sparing.onToken (.tag t) = .tag t.inCapitals :=
          congrArg Token.tag (if_neg other)
        rw [capitals] at ends
        exact other (endsPower_of_inCapitals ends)
    exact congrArg Token.tag (if_pos ends)

theorem Token.Alike.onToken_capitals {t t' : Token} (h : t.Alike t') :
    Recasing.capitals.onToken t = Recasing.capitals.onToken t' := by
  cases h with
  | same => rfl
  | tag alike => exact congrArg Token.tag alike.inCapitals

theorem Token.Alike.onToken_sparing {t t' : Token} (h : t.Alike t')
    (spared : t ≠ t' → t.endsPower = false ∧ t'.endsPower = false) :
    Recasing.sparing.onToken t = Recasing.sparing.onToken t' := by
  cases h with
  | same => rfl
  | @tag t t' alike =>
    by_cases same : Token.tag t = .tag t'
    · rw [same]
    · obtain ⟨other, other'⟩ := spared same
      have left : Recasing.sparing.onTag t = t.inCapitals :=
        if_neg (ne_true_of_eq_false other)
      have right : Recasing.sparing.onTag t' = t'.inCapitals :=
        if_neg (ne_true_of_eq_false other')
      rw [Recasing.onToken, Recasing.onToken, left, right, alike.inCapitals]

end Worksheet.Markup

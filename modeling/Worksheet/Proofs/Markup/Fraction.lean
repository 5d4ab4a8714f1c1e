import Mathlib.Data.List.Basic
import Worksheet.Proofs.Markup.Naming
import Worksheet.Proofs.Markup.Nesting

/-!
# Units of fractions

The last fraction of a markup is a forest, and its unit is made of the sides of
the line in the forest and of the power after it. A fraction drawn from two
forests gives back what they mean, however deep their spans are nested.
-/

namespace Worksheet

namespace Text

/-- A text is cut at the first place where the mark stands. -/
theorem cutAt?_eq_some_iff {mark s before rest : Text} :
    cutAt? mark s = some (before, rest) ↔
      s = before ++ (mark ++ rest) ∧ ∀ b r, s = b ++ (mark ++ r) →
        before.length ≤ b.length := by
  induction s generalizing before with
  | nil =>
    cases mark with
    | nil => simp +contextual [cutAt?]
    | cons a mark => simp [cutAt?]
  | cons c s ih =>
    rw [cutAt?]
    cases front : after? mark (c :: s) with
    | some rest' =>
      have here := after?_eq_some_iff.1 front
      constructor
      · intro cut
        cases cut
        exact ⟨here, fun _ _ _ => Nat.zero_le _⟩
      · rintro ⟨join, first⟩
        have empty : before = [] :=
          List.eq_nil_of_length_eq_zero (Nat.le_zero.1 (first [] rest' here))
        subst empty
        have same : rest' = rest :=
          List.append_cancel_left (here.symm.trans join)
        rw [same]
    | none =>
      have absent (r : Text) : c :: s ≠ mark ++ r := by
        intro here
        rw [after?_eq_some_iff.2 here] at front
        cases front
      rw [Option.map_eq_some_iff]
      constructor
      · rintro ⟨⟨b, r⟩, cut, sides⟩
        cases sides
        obtain ⟨rfl, first⟩ := ih.1 cut
        refine ⟨rfl, ?_⟩
        intro b' r' join
        cases b' with
        | nil => exact absurd join (absent r')
        | cons d b' =>
          exact Nat.succ_le_succ (first b' r' (List.cons.inj join).2)
      · rintro ⟨join, first⟩
        cases before with
        | nil => exact absurd join (absent rest)
        | cons d b =>
          obtain ⟨rfl, rfl⟩ := List.cons.inj join
          refine ⟨(b, rest), ih.2 ⟨rfl, ?_⟩, rfl⟩
          intro b' r' join'
          have later := first (c :: b') r' (congrArg (c :: ·) join')
          exact Nat.le_of_succ_le_succ later

end Text

namespace Markup

open Text

/-! ## The last fraction -/

/-- Whether the tag begins a fraction. -/
def Tag.opensFraction (t : Tag) : Bool :=
  t.opens "span".toList && t.classes.contains "dvc".toList

/-- Whether the token is a tag that begins a fraction. -/
def Token.opensFraction : Token → Bool
  | tag t => t.opensFraction
  | _ => false

section

variable {p : Tag → Bool} {ts front back : List Token} {t : Tag}

theorem lastTag?_eq_none (h : ∀ u, .tag u ∈ ts → p u = false) :
    lastTag? p (splitTags ts).2 = none := by
  induction ts with
  | nil => rfl
  | cons u ts ih =>
    have rest := ih fun v hv => h v (List.mem_cons_of_mem u hv)
    cases u with
    | tag v =>
      rw [splitTags_tag, lastTag?, rest,
        if_neg (ne_true_of_eq_false (h v List.mem_cons_self))]
    | entity e => exact rest
    | char c => exact rest

theorem lastTag?_append (ht : p t = true)
    (last : ∀ u, .tag u ∈ back → p u = false) :
    lastTag? p (splitTags (front ++ .tag t :: back)).2 =
      some (⟨t, (splitTags back).1⟩, (splitTags back).2) := by
  induction front with
  | nil =>
    rw [List.nil_append, splitTags_tag, lastTag?, lastTag?_eq_none last,
      if_pos ht]
  | cons u front ih =>
    rw [List.cons_append]
    cases u with
    | tag v => rw [splitTags_tag, lastTag?, ih]
    | entity e => exact ih
    | char c => exact ih

/-- No tag has the property: a tag in the middle has it not, and none around it
has. -/
theorem forall_tag_around :
    (∀ u, .tag u ∈ front ++ .tag t :: back → p u = false) ↔
      p t = false ∧ ∀ u, .tag u ∈ front ++ back → p u = false := by
  constructor
  · intro h
    refine ⟨h t (by simp), fun u hu => h u ?_⟩
    rw [List.mem_append, List.mem_cons]
    exact (List.mem_append.1 hu).imp_right .inr
  · rintro ⟨middle, around⟩ u hu
    rcases List.mem_append.1 hu with hu | hu
    · exact around u (List.mem_append_left _ hu)
    rcases List.mem_cons.1 hu with hu | hu
    · rw [Token.tag.inj hu, middle]
    · exact around u (List.mem_append_right _ hu)

/-- Either no tag has the property, or there is a last one. -/
theorem exists_last_tag (p : Tag → Bool) (ts : List Token) :
    (∀ u, .tag u ∈ ts → p u = false) ∨
      ∃ front t back, ts = front ++ .tag t :: back ∧ p t = true ∧
        ∀ u, .tag u ∈ back → p u = false := by
  induction ts with
  | nil => exact .inl (by simp)
  | cons u ts ih =>
    rcases ih with none | ⟨front, t, back, rfl, ht, last⟩
    · by_cases here : ∃ v, u = .tag v ∧ p v = true
      · obtain ⟨v, rfl, hv⟩ := here
        exact .inr ⟨[], v, ts, rfl, hv, none⟩
      · refine .inl fun v hv => ?_
        rcases List.mem_cons.1 hv with rfl | hv
        · exact Bool.eq_false_iff.2 fun holds => here ⟨v, rfl, holds⟩
        · exact none v hv
    · exact .inr ⟨u :: front, t, back, rfl, ht, last⟩

end

/-- The unit of a fraction without its power, by the markups above and below the
line. -/
def fractionBase? (above below : Text) : Option Text :=
  let numerator := unitText above
  let denominator := unitText below
  if numerator.isEmpty || denominator.isEmpty then none
  else if numerator.any isAlphabetic || denominator.any isAlphabetic then
    some (numerator ++ '/' :: denominator)
  else none

/-- The unit of the last fraction without its power, and the markup after the
fraction. -/
def fractionReading? (markup : Text) : Option (Text × Text) :=
  (lastTag? Tag.opensFraction (taggedTexts markup)).bind
    fun (opening, following) =>
    (spanEnd? 0 following).bind fun e =>
      (fractionParts? (.loose opening.after :: e.parts)).bind
        fun (above, below) =>
        (fractionBase? above below).map fun unit => (unit, e.after)

theorem fractionUnit?_eq (markup : Text) :
    fractionUnit? markup = (fractionReading? markup).map fun (unit, after) =>
      unit ++ power after := by
  rw [fractionUnit?, fractionReading?]
  simp only [← Tag.opensFraction.eq_1]
  cases lastTag? Tag.opensFraction (taggedTexts markup) with
  | none => rfl
  | some found =>
    obtain ⟨opening, following⟩ := found
    simp only [Option.bind_some]
    cases spanEnd? 0 following with
    | none => rfl
    | some e =>
      simp only [Option.bind_some]
      cases fractionParts? (.loose opening.after :: e.parts) with
      | none => rfl
      | some sides =>
        obtain ⟨above, below⟩ := sides
        simp only [Option.bind_some, fractionBase?]
        split
        · rfl
        · split <;> rfl

section

variable {markup : Text} {ts front : List Token}
  (split : splitTags (tokens markup) = splitTags ts)

include split

theorem fractionReading?_of_none
    (h : ∀ u, .tag u ∈ ts → u.opensFraction = false) :
    fractionReading? markup = none := by
  rw [fractionReading?, taggedTexts, split, lastTag?_eq_none h,
    Option.bind_none]

theorem fractionReading?_of_last {back : List Token} {opening : Tag}
    (h : ts = front ++ .tag opening :: back)
    (opens : opening.opensFraction = true)
    (last : ∀ u, .tag u ∈ back → u.opensFraction = false) :
    fractionReading? markup =
      (readSpan? back).bind fun (s, e) =>
        (fractionParts? (.loose s :: e.parts)).bind fun (above, below) =>
        (fractionBase? above below).map fun unit => (unit, e.after) := by
  rw [fractionReading?, taggedTexts, split, h, lastTag?_append opens last,
    readSpan?, Option.bind_map]
  rfl

/-- The unit of the last fraction is made of the sides of the line in its
forest. -/
theorem fractionReading?_of_forest {f : Forest} {after : List Token}
    {opening closing : Tag}
    (h : ts = front ++ .tag opening :: (f.toTokens ++ .tag closing :: after))
    (opens : opening.opensFraction = true) (nested : f.Nested)
    (closes : closing.closes "span".toList = true)
    (last : ∀ u, .tag u ∈ f.toTokens ++ after → u.opensFraction = false) :
    fractionReading? markup = f.fraction?.bind fun (above, below) =>
      (fractionBase? above.text below.text).map fun unit =>
        (unit, unlex after) := by
  have closing' : closing.opensFraction = false := by
    rw [Tag.opensFraction, Tag.not_opens_of_closes closes, Bool.false_and]
  obtain ⟨s, ps, read, shows'⟩ := readSpan?_append nested closes after
  rw [fractionReading?_of_last split h opens
    (forall_tag_around.2 ⟨closing', last⟩), read, Option.bind_some]
  simp only [shows'.fractionParts, Option.bind_map]
  rfl

end

/-! ## The power after a fraction -/

/-- The markup raises to a power: after blanks it begins with a tag for a raised
script, followed by the exponent and the first `</sup>`. -/
def RaisesTo (markup exponent : Text) : Prop :=
  ∃ blanks t rest, isAllBlank blanks = true ∧ Tag.Sound t ∧
    t.opens "sup".toList = true ∧
    markup = blanks ++ (t.text ++ (exponent ++ ("</sup>".toList ++ rest))) ∧
    ∀ before rest', exponent ++ ("</sup>".toList ++ rest) =
      before ++ ("</sup>".toList ++ rest') →
      exponent.length ≤ before.length

/-- What the power after a fraction is read from. -/
def exponent? (markup : Text) : Option Text :=
  (Tag.read? (trimStart markup)).bind fun (t, inside) =>
    if t.opens "sup".toList then
      (cutAt? "</sup>".toList inside).map Prod.fst
    else none

theorem power_eq (markup : Text) :
    power markup =
      match exponent? markup with
      | some exponent =>
        if (unitText exponent).isEmpty then [] else '^' :: unitText exponent
      | none => [] := by
  rw [power, exponent?]
  cases Tag.read? (trimStart markup) with
  | none => rfl
  | some found =>
    obtain ⟨t, inside⟩ := found
    simp only [Option.bind_some]
    split
    · cases cutAt? "</sup>".toList inside <;> rfl
    · rfl

theorem raisesTo_iff {markup exponent : Text} :
    RaisesTo markup exponent ↔ exponent? markup = some exponent := by
  constructor
  · rintro ⟨blanks, t, rest, blank, sound, opens, rfl, first⟩
    have front :
        trimStart
            (blanks ++ (t.text ++ (exponent ++ ("</sup>".toList ++ rest)))) =
        t.text ++ (exponent ++ ("</sup>".toList ++ rest)) :=
      trimStart_append blank (by rw [Tag.text]; rfl)
    have read : Tag.read? (t.text ++ (exponent ++ ("</sup>".toList ++ rest))) =
        some (t, exponent ++ ("</sup>".toList ++ rest)) :=
      Tag.readAfter?_eq_some_iff.2 ⟨sound, by simp⟩
    rw [exponent?, front, read, Option.bind_some]
    simp only [opens, if_true, cutAt?_eq_some_iff.2 ⟨rfl, first⟩,
      Option.map_some]
  · intro h
    obtain ⟨⟨t, inside⟩, read, found⟩ := Option.bind_eq_some_iff.1 h
    dsimp only at found
    split at found
    · next opens =>
      obtain ⟨⟨exponent, rest⟩, cut, rfl⟩ := Option.map_eq_some_iff.1 found
      obtain ⟨rfl, first⟩ := cutAt?_eq_some_iff.1 cut
      have join := Tag.text_append_of_read? read
      refine ⟨leading markup, t, rest, isAllBlank_leading markup, ?_, opens, ?_,
        first⟩
      · rw [← join] at read
        exact (Tag.readAfter?_eq_some_iff.1 read).1
      · rw [join, leading_append_trimStart]
    · cases found

/-- The power is the exponent to which the markup raises, if that shows
anything. -/
theorem power_cases (markup : Text) :
    (∃ exponent, RaisesTo markup exponent ∧ unitText exponent ≠ [] ∧
        power markup = '^' :: unitText exponent) ∨
      (¬ ∃ exponent, RaisesTo markup exponent ∧ unitText exponent ≠ []) ∧
        power markup = [] := by
  simp only [raisesTo_iff, power_eq]
  cases exponent? markup with
  | none => exact .inr (by simp)
  | some exponent =>
    by_cases shown : unitText exponent = []
    · exact .inr (by simp [shown])
    · exact .inl ⟨exponent, rfl, shown, by simp [shown]⟩

/-! ## Fractions drawn from forests -/

namespace Forest

/-- Spans are nested, and all tokens are well-formed. -/
def WellFormed (f : Forest) : Prop := f.Nested ∧ ∀ t ∈ f.toTokens, t.WellFormed

instance : DecidablePred WellFormed := fun f =>
  inferInstanceAs (Decidable (f.Nested ∧ ∀ t ∈ f.toTokens, t.WellFormed))

def append : Forest → Forest → Forest
  | nil, g => g
  | leaf token rest, g => leaf token (rest.append g)
  | span opening inside closing rest, g =>
    span opening inside closing (rest.append g)

theorem toTokens_append (f g : Forest) :
    (f.append g).toTokens = f.toTokens ++ g.toTokens := by
  induction f with
  | nil => rfl
  | leaf token rest ih => rw [append, toTokens, ih]; rfl
  | span opening inside closing rest ihInside ihRest =>
    rw [append, toTokens, ihRest]; simp [toTokens]

theorem Nested.append {f g : Forest} (hf : f.Nested) (hg : g.Nested) :
    (f.append g).Nested := by
  induction f with
  | nil => exact hg
  | leaf token rest ih => exact ⟨hf.1, ih hf.2⟩
  | span opening inside closing rest ihInside ihRest =>
    obtain ⟨opens, closes, inner, later⟩ := hf
    exact ⟨opens, closes, inner, ihRest later⟩

/-- A forest without a line of its own stands above the line that follows it. -/
theorem cutAtRule?_append {f : Forest}
    (plain : ∀ child ∈ f.children, isRule child.1 child.2 = false)
    {opening : Tag} {inside : Forest} (rule : isRule opening inside = true)
    (closing : Tag) (below : Forest) :
    (f.append (span opening inside closing below)).cutAtRule? =
      some (f, below) := by
  induction f with
  | nil => exact if_pos rule
  | leaf token rest ih =>
    rw [append, cutAtRule?, ih plain]
    rfl
  | span opening' inside' closing' rest ihInside ihRest =>
    obtain ⟨first, later⟩ := List.forall_mem_cons.1 plain
    rw [append, cutAtRule?, if_neg (ne_true_of_eq_false first), ihRest later]
    rfl

end Forest

/-- The tag that opens a span of one class. -/
def spanOf (cls : String) : Tag :=
  .ofName false "span".toList (" class=\"".toList ++ (cls.toList ++ ['"']))

/-- The tag that closes a span. -/
def spanClose : Tag := .ofName true "span".toList []

theorem spanOf_wellFormed {cls : String} (unclosed : '>' ∉ cls.toList) :
    (Token.tag (spanOf cls)).WellFormed := by
  refine .ofName false rfl (List.all_eq_true.1 rfl) rfl ?_
  simpa using unclosed

theorem spanClose_wellFormed : (Token.tag spanClose).WellFormed :=
  .ofName true rfl (List.all_eq_true.1 rfl) rfl (by simp)

theorem isRule_spanOf_nil : Forest.isRule (spanOf "dvl") .nil = true := by
  have empty : unitText [] = [] := by rw [unitText, meaning, tokens]; rfl
  rw [Forest.isRule, Forest.text_nil, empty]
  decide

/-- A fraction whose numerator and denominator are forests, however deep, on the
two sides of an empty line shows both as its unit, and behind them the power to
which what follows raises it. -/
theorem nested_fraction_unit (before after : List Token) (above below : Forest)
    (wellBefore : ∀ t ∈ before, t.WellFormed)
    (wellAfter : ∀ t ∈ after, t.WellFormed) (wellAbove : above.WellFormed)
    (wellBelow : below.WellFormed)
    (last : ∀ t ∈ above.toTokens ++ below.toTokens ++ after,
      t.opensFraction = false)
    (unruled : ∀ child ∈ above.children, "dvl".toList ∈ child.1.classes →
      unitText child.2.text ≠ [])
    (shownAbove : unitText above.text ≠ [])
    (shownBelow : unitText below.text ≠ [])
    (letter : ∃ c ∈ unitText above.text ++ unitText below.text,
      isAlphabetic c = true) :
    ∃ exponent,
      fractionUnit?
        (unlex before ++ "<span class=\"dvc\">".toList ++ above.text ++
          "<span class=\"dvl\"></span>".toList ++ below.text ++
          "</span>".toList ++ unlex after) =
        some (unitText above.text ++ '/' :: unitText below.text ++ exponent) ∧
      ((∃ e, RaisesTo (unlex after) e ∧ unitText e ≠ [] ∧
          exponent = '^' :: unitText e) ∨
        (¬ ∃ e, RaisesTo (unlex after) e ∧ unitText e ≠ []) ∧
          exponent = []) := by
  let inside : Forest :=
    above.append (.span (spanOf "dvl") .nil spanClose below)
  let ts : List Token :=
    before ++ .tag (spanOf "dvc") ::
      (inside.toTokens ++ .tag spanClose :: after)
  have insideTokens : inside.toTokens =
      above.toTokens ++ .tag (spanOf "dvl") :: .tag spanClose ::
        below.toTokens := by
    rw [Forest.toTokens_append]
    rfl
  have written : unlex before ++ "<span class=\"dvc\">".toList ++ above.text ++
      "<span class=\"dvl\"></span>".toList ++ below.text ++ "</span>".toList ++
      unlex after = unlex ts := by
    have opening : "<span class=\"dvc\">".toList = (spanOf "dvc").text := by
      decide
    have rule : "<span class=\"dvl\"></span>".toList =
        (spanOf "dvl").text ++ spanClose.text := by decide
    have closing : "</span>".toList = spanClose.text := by decide
    rw [opening, rule, closing]
    simp [ts, insideTokens, Forest.text, unlex, Token.text]
  have wellFormed : ∀ t ∈ ts, t.WellFormed := by
    have opening : (Token.tag (spanOf "dvc")).WellFormed :=
      spanOf_wellFormed (by decide)
    have rule : (Token.tag (spanOf "dvl")).WellFormed :=
      spanOf_wellFormed (by decide)
    have closing := spanClose_wellFormed
    simp only [ts, insideTokens, List.forall_mem_append, List.forall_mem_cons]
    exact ⟨wellBefore, opening, ⟨wellAbove.2, rule, closing, wellBelow.2⟩,
      closing, wellAfter⟩
  have nested : inside.Nested :=
    wellAbove.1.append ⟨by decide, by decide, trivial, wellBelow.1⟩
  have last' : ∀ u, .tag u ∈ inside.toTokens ++ after →
      u.opensFraction = false := by
    intro u hu
    have cases' : .tag u ∈ above.toTokens ++ below.toTokens ++ after ∨
        u = spanOf "dvl" ∨
        u = spanClose := by
      simp only [insideTokens, List.mem_append, List.mem_cons,
        Token.tag.injEq] at hu ⊢
      tauto
    rcases cases' with mem | rfl | rfl
    · exact last (.tag u) mem
    · decide
    · decide
  -- The line that is written between the sides is the first one of the whole
  -- forest.
  have fraction : inside.fraction? = some (above, below) := by
    have plain : ∀ child ∈ above.children,
        Forest.isRule child.1 child.2 = false := by
      intro child mem
      rw [Forest.isRule, Bool.and_eq_false_iff]
      by_cases ruled : "dvl".toList ∈ child.1.classes
      · exact .inr (by simpa using unruled child mem ruled)
      · exact .inl (by simpa using ruled)
    rw [Forest.fraction?, Forest.cutAtRule?_append plain isRule_spanOf_nil]
  have letter' : (unitText above.text).any isAlphabetic ||
      (unitText below.text).any isAlphabetic := by
    rw [← List.any_append]
    exact List.any_eq_true.2 letter
  have base : fractionBase? above.text below.text =
      some (unitText above.text ++ '/' :: unitText below.text) := by
    simp [fractionBase?, shownAbove, shownBelow, letter']
  have read : fractionUnit? (unlex ts) =
      some (unitText above.text ++ '/' :: unitText below.text ++
        power (unlex after)) := by
    rw [fractionUnit?_eq,
      fractionReading?_of_forest (splitTags_tokens_unlex wellFormed) rfl
        (by decide) nested (by decide) last',
      fraction, Option.bind_some]
    simp only [base, Option.map_some]
  rw [written, read]
  rcases power_cases (unlex after) with ⟨e, raises, shown, same⟩ | ⟨none, same⟩
  · exact ⟨_, congrArg _ (congrArg _ same), .inl ⟨e, raises, shown, rfl⟩⟩
  · exact ⟨_, congrArg _ (congrArg _ same), .inr ⟨none, rfl⟩⟩

theorem nested_fraction_unit_sample :
    fractionUnit?
      ("q = 2 <span class=\"dvc\"><span class=\"dvr\"><i>k<span>N</span></i>·</span>m" ++
      "<span class=\"dvl\"></span>(<i>cm</i>)<sup>2</sup></span>\n<sup class=\"e\">2</sup>!"
      ).toList =
      some "kN·m/(cm)^2^2".toList := by
  let above : Forest :=
    .span ⟨"span class=\"dvr\"".toList⟩
      (.leaf (.tag ⟨['i']⟩)
        (.leaf (.char 'k') (.span ⟨"span".toList⟩ (.leaf (.char 'N') .nil)
        ⟨"/span".toList⟩ (.leaf (.tag ⟨"/i".toList⟩) (.leaf (.char '·') .nil)))))
      ⟨"/span".toList⟩ (.leaf (.char 'm') .nil)
  let below : Forest :=
    .leaf (.char '(') (.leaf (.tag ⟨['i']⟩)
      (.leaf (.char 'c') (.leaf (.char 'm') (.leaf (.tag ⟨"/i".toList⟩)
        (.leaf (.char ')') (.leaf (.tag ⟨"sup".toList⟩)
          (.leaf (.char '2') (.leaf (.tag ⟨"/sup".toList⟩) .nil))))))))
  let after : List Token :=
    [.char '\n', .tag ⟨"sup class=\"e\"".toList⟩, .char '2',
     .tag ⟨"/sup".toList⟩, .char '!']
  obtain ⟨exponent, read, power⟩ :=
    nested_fraction_unit ("q = 2 ".toList.map .char) after above below
      (by decide) (by decide) (by decide) (by decide) (by decide)
      (by decide +kernel) (by decide +kernel)
      (by decide +kernel) ⟨'k', by decide +kernel, by decide⟩
  have raised : exponent? (unlex after) = some ['2'] := by decide +kernel
  have power' : exponent = ['^', '2'] := by
    simp only [raisesTo_iff, raised, Option.some.injEq] at power
    rcases power with ⟨e, rfl, -, same⟩ | ⟨none, -⟩
    · rw [same]
      decide +kernel
    · exact absurd ⟨['2'], rfl, by decide +kernel⟩ none
  rw [power'] at read
  refine (congrArg fractionUnit? ?_).trans (read.trans (congrArg some ?_)) <;>
    decide +kernel

end Markup
end Worksheet

import Mathlib.Data.List.Basic
import Worksheet.Proofs.Decimal.Notation
import Worksheet.Proofs.Source.Slot

/-!
# Segments with another literal

A segment with a slot is taken apart into the name, the assignment sign, the
margins and the right side around its literal. Another literal in the slot
leaves the other parts where they are, so that the segment is read with the same
name. In braces nothing else changes; a bare literal is read in one piece just
when what follows it does not continue it.
-/

namespace Worksheet

/-- A statement of the same kind, with the same name and unit, that has a
value. -/
structure Statement.Revalued (s s' : Statement) (x : Float) : Prop where
  kind : s'.kind = s.kind
  name : s'.name? = s.name?
  unit : s'.unit = s.unit
  value : s'.value? = some x

theorem Statement.revalued_of_literal {form : Form}
    {name unit body body' : Text} {slot : Option Slot} {slot' : Slot}
    {n : Decimal.Numeral} (written : n.Written Char.isDigit)
    (literal : slot'.literal = n.text) :
    Statement.Revalued (.declared form name slot unit body)
      (.declared form name (some slot') unit body') n.value := by
  refine ⟨rfl, rfl, rfl, ?_⟩
  rw [Statement.value?, Statement.slot?, Option.bind_some, literal,
    Decimal.value?_text written]

namespace Vocabulary

open Text

/-- How a right side holds a slot. -/
inductive HoldsSlot (v : Vocabulary) (body : Text) (slot : Slot) :
    (unit : Text) → Prop where
  /-- Between braces. -/
  | braced {gap inside rest unit : Text} (blank : isAllBlank gap = true)
    (closed : '}' ∉ inside)
    (hbody : body = bracedBody gap inside rest)
    (hslot : slot = bracedSlot gap inside rest)
    (hunit : v.wholeUnit? (trim rest) = some unit) : HoldsSlot v body slot unit
  /-- As the number at the front. -/
  | bare {n : Decimal.Numeral} {rest unit : Text}
    (read : Decimal.Numeral.read? body = some (n, rest))
    (hslot : slot = ⟨[], n.text, rest⟩)
    (hunit : v.wholeUnit? (trimStart rest) = some unit) :
    HoldsSlot v body slot unit

namespace HoldsSlot

variable {v : Vocabulary} {body unit literal : Text} {slot : Slot}

theorem text (h : HoldsSlot v body slot unit) : slot.text = body := by
  cases h with
  | braced _ _ hbody hslot _ => rw [hbody, hslot, bracedSlot_text]
  | bare read hslot _ =>
    rw [hslot]
    exact Decimal.Numeral.text_append_of_readWith? read

theorem ne_nil (h : HoldsSlot v body slot unit) : body ≠ [] := by
  cases h with
  | braced _ _ hbody _ _ => simp [hbody, bracedBody]
  | bare read _ _ =>
    rintro rfl
    cases read

theorem fill_ne_nil (mild : Mild literal) : slot.fill literal ≠ [] := by
  simp [Slot.fill, mild.ne]

theorem fill_trimmed (h : HoldsSlot v body slot unit) (trimmed : Trimmed body)
    (mild : Mild literal) : Trimmed (slot.fill literal) := by
  have join := h.text
  cases h with
  | braced blank closed hbody hslot _ =>
    -- The braces are the ends, before and after.
    rw [← join] at trimmed
    exact trimmed.replace (by simp [hslot, bracedSlot])
      (by simp [hslot, bracedSlot]) literal
  | @bare n rest unit read hslot _ =>
    have literals : slot.fill literal = literal ++ rest := by rw [hslot]; rfl
    have olds : body = n.text ++ rest := by rw [← join, hslot]; rfl
    rw [literals]
    constructor
    · exact mild.trimmed.head_append mild.ne rest
    · cases rest with
      | nil =>
        rw [List.append_nil]
        exact mild.trimmed.last
      | cons c rest =>
        have last := trimmed.last
        rw [olds, List.getLast?_append_of_ne_nil _ (by simp)] at last
        rwa [List.getLast?_append_of_ne_nil _ (by simp)]

/-- The text before the literal has no equals sign. -/
theorem isEquals_before (h : HoldsSlot v body slot unit) :
    ∀ c ∈ slot.before, isEquals c = false := by
  cases h with
  | @braced gap inside rest _ blank _ _ hslot _ =>
    intro c hc
    have blankInside := isBlank_of_mem (isAllBlank_leading inside)
    simp only [hslot, bracedSlot, List.mem_cons, List.mem_append] at hc
    rcases hc with rfl | hc | rfl | hc
    · decide
    · exact isEquals_of_isBlank (isBlank_of_mem blank c hc)
    · decide
    · exact isEquals_of_isBlank (blankInside c hc)
  | bare _ hslot _ => simp [hslot]

/-- An equals sign right after a literal stands after a bare number. -/
theorem literal_of_equals_after (h : HoldsSlot v body slot unit) {q : Text}
    (equals : (slot.after ++ q).head?.any isEquals = true) :
    Mild slot.literal := by
  cases h with
  | @braced gap inside rest _ _ _ _ hslot _ =>
    exfalso
    have blankInside := isBlank_of_mem (isAllBlank_trailing inside)
    rw [hslot, bracedSlot] at equals
    cases hq : trailing inside with
    | nil =>
      rw [hq] at equals
      have brace : isEquals '}' = true := equals
      exact absurd brace (by decide)
    | cons c t =>
      rw [hq] at equals blankInside
      have blank := blankInside c List.mem_cons_self
      rw [List.cons_append, List.cons_append, List.head?_cons, Option.any_some,
        isEquals_of_isBlank blank] at equals
      cases equals
  | bare read hslot _ =>
    rw [hslot]
    exact .of_written (Decimal.Numeral.written_of_readWith? read)

end HoldsSlot

/-! ## The parts of a segment -/

/-- A segment in parts: the left side, the assignment sign, and the right side
between its margins, with a slot. -/
structure Parts where
  left : Text
  sign : Char
  before : Text
  slot : Slot
  after : Text

namespace Parts

/-- The right side with its margins. -/
def right (p : Parts) : Text := p.before ++ (p.slot.text ++ p.after)

/-- The segment. -/
def text (p : Parts) : Text := p.left ++ p.sign :: p.right

/-- The slot in the segment. -/
def whole (p : Parts) : Slot :=
  p.slot.within (p.left ++ [p.sign] ++ p.before) p.after

/-- The parts with another literal in the slot. -/
def fill (p : Parts) (literal : Text) : Parts :=
  { p with slot := { p.slot with literal } }

theorem whole_text (p : Parts) : p.whole.text = p.text := by
  simp [whole, text, right, Slot.within, Slot.text]

theorem whole_fill (p : Parts) (literal : Text) :
    p.whole.fill literal = (p.fill literal).text := by
  simp [whole, text, right, fill, Slot.within, Slot.text, Slot.fill]

/-- The parts are those that classification finds. -/
structure Framed (p : Parts) : Prop where
  name : isName (trim p.left) = true
  blank_before : isAllBlank p.before = true
  blank_after : isAllBlank p.after = true
  trimmed : Trimmed p.slot.text
  ne : p.slot.text ≠ []
  only : assignments p.text = [⟨p.left, p.sign, p.right⟩]

namespace Framed

variable {v : Vocabulary} {joined : Bool} {p : Parts} {unit literal : Text}

theorem leading_right (h : p.Framed) : leading p.right = p.before :=
  leading_between h.blank_before h.trimmed h.ne p.after

theorem trim_right (h : p.Framed) : trim p.right = p.slot.text :=
  trim_between h.blank_before h.blank_after h.trimmed h.ne

theorem trailing_right (h : p.Framed) : trailing p.right = p.after :=
  trailing_between h.blank_before h.blank_after h.trimmed h.ne

theorem not_blank (h : p.Framed) : isAllBlank p.text = false := by
  rw [Bool.eq_false_iff]
  intro blank
  obtain ⟨c, t, ht⟩ := List.exists_cons_of_ne_nil h.ne
  have head := h.trimmed.head
  have mem : c ∈ p.text := by simp [text, right, ht]
  rw [ht, List.head?_cons, Option.any_some, isBlank_of_mem blank c mem] at head
  cases head

theorem classify (h : p.Framed) (v : Vocabulary) (joined : Bool) :
    v.classify joined p.text =
      v.classifyRight joined (trim p.left) (p.left ++ [p.sign]) p.right := by
  simp [Vocabulary.classify, h.not_blank, h.only, h.name]

/-- Another literal leaves the other parts where they are. -/
theorem fill (h : p.Framed) (slot : HoldsSlot v p.slot.text p.slot unit)
    (mild : Mild literal) :
    (p.fill literal).Framed where
  name := h.name
  blank_before := h.blank_before
  blank_after := h.blank_after
  trimmed := slot.fill_trimmed h.trimmed mild
  ne := HoldsSlot.fill_ne_nil mild
  only := by
    -- Only a sign right after the literal could be counted otherwise than
    -- before: then the character before it decides, and that is the last one of
    -- a number in both texts.
    have front : ∀ c ∈ p.before ++ p.slot.before, isEquals c = false := by
      intro c hc
      rcases List.mem_append.1 hc with hc | hc
      · exact isEquals_of_isBlank (isBlank_of_mem h.blank_before c hc)
      · exact slot.isEquals_before c hc
    have last {literal : Text} (mild : Mild literal) :
        (p.before ++ p.slot.before ++ literal).getLast?.any comparesBefore =
          false := by
      rw [List.getLast?_append_of_ne_nil _ mild.ne]
      exact mild.comparesBefore_last
    have replaced := assignments_replace h.only
      (show p.right = p.before ++ p.slot.before ++
        (p.slot.literal ++ (p.slot.after ++ p.after)) by
        simp [right, Slot.text])
      front mild.isEquals (by simp [mild.ne])
      (fun equals => by
        have old := slot.literal_of_equals_after equals
        exact ⟨last old, by simp [old.ne], last mild⟩)
    have same : (p.fill literal).right =
        p.before ++ p.slot.before ++
          (literal ++ (p.slot.after ++ p.after)) := by
      simp [right, Parts.fill, Slot.text]
    rw [text, same]
    exact replaced.2

end Framed
end Parts

/-! ## What the parts say -/

/-- The form of a right side with a slot, by whether it has braces and a mark
precedes it. -/
def formOf (joined braced : Bool) : Form :=
  if joined then .joined else if braced then .input else .literal

section

variable {v : Vocabulary} {joined : Bool} {p : Parts} {segment unit : Text}
  {slot : Slot}

theorem place_eq (h : p.Framed) :
    p.slot.within (p.left ++ [p.sign] ++ leading p.right) (trailing p.right) =
      p.whole := by
  rw [h.leading_right, h.trailing_right, Parts.whole]

/-- An input in braces is classified as such. -/
theorem classify_braced (joined : Bool) (h : p.Framed) {gap inside rest : Text}
    (blank : isAllBlank gap = true) (closed : '}' ∉ inside)
    (hbody : p.slot.text = bracedBody gap inside rest)
    (hslot : p.slot = bracedSlot gap inside rest)
    (hunit : v.wholeUnit? (trim rest) = some unit) :
    v.classify joined p.text =
      .declared (formOf joined true) (trim p.left)
        (some p.whole) unit p.slot.text := by
  have input : v.input? p.slot.text = some (some p.slot, unit) := by
    rw [hbody, input?_bracedBody v blank closed, hunit, hslot]
    rfl
  rw [h.classify, classifyRight]
  simp only [h.trim_right, input, Option.map_some, place_eq h]
  cases joined <;> rfl

/-- A right side that begins with a number and goes on with a unit is classified
as a number. -/
theorem classify_bare (joined : Bool) (h : p.Framed) {n : Decimal.Numeral}
    {rest : Text} (read : Decimal.Numeral.read? p.slot.text = some (n, rest))
    (hslot : p.slot = ⟨[], n.text, rest⟩)
    (hunit : v.wholeUnit? (trimStart rest) = some unit) :
    v.classify joined p.text =
      .declared (formOf joined false) (trim p.left)
        (some p.whole) unit p.slot.text := by
  have input := input?_eq_none (v := v) (head?_of_read? read)
  have literal : v.literal? p.slot.text = some (p.slot, unit) := by
    rw [literal?, read, hslot]
    simp only [hunit, Option.map_some]
  rw [h.classify, classifyRight]
  simp only [h.trim_right, input, literal, place_eq h]
  cases joined <;> rfl

/-- A right side that gives a slot holds it between its margins. -/
theorem exists_of_classifyRight {name front right : Text}
    (hs : (v.classifyRight joined name front right).slot? = some slot) :
    ∃ inner unit, HoldsSlot v (trim right) inner unit ∧
      inner.within (front ++ leading right) (trailing right) = slot := by
  unfold classifyRight at hs
  dsimp only at hs
  split at hs
  · next inner? unit input =>
    obtain ⟨inner, rfl, hplace⟩ := Option.map_eq_some_iff.1 hs
    obtain ⟨gap, inside, rest, blank, closed, hbody, hslot, hunit⟩ :=
      exists_bracedBody input
    exact ⟨inner, unit, .braced blank closed hbody hslot hunit, hplace⟩
  split at hs
  · next inner unit literal =>
    unfold literal? at literal
    split at literal
    · next n rest read =>
      obtain ⟨unit', hunit, he⟩ := Option.map_eq_some_iff.1 literal
      obtain ⟨rfl, rfl⟩ := Prod.mk.inj he
      exact ⟨_, unit', .bare read rfl hunit, Option.some.inj hs⟩
    · cases literal
  · split at hs <;> cases hs

/-- A segment with one assignment sign and a name before it is framed by what
its right side holds. -/
theorem framed_of_single {left right : Text} {sign : Char} {inner : Slot}
    (single : assignments segment = [⟨left, sign, right⟩])
    (name : isName (trim left) = true)
    (holds : HoldsSlot v (trim right) inner unit) :
    Parts.Framed ⟨left, sign, leading right, inner, trailing right⟩ ∧
      Parts.text ⟨left, sign, leading right, inner, trailing right⟩ =
        segment := by
  have hright :
      Parts.right ⟨left, sign, leading right, inner, trailing right⟩ =
        right := by
    rw [Parts.right, holds.text, leading_append_trim_append_trailing]
  have hsegment : left ++ sign :: right = segment := by
    obtain ⟨front, hs, hleft, -⟩ := exists_of_assignmentsAfter_cons single
    have hfront : left = front := hleft
    rw [hs, hfront]
  have htext : Parts.text ⟨left, sign, leading right, inner, trailing right⟩ =
      segment := by
    rw [Parts.text, hright, hsegment]
  refine ⟨⟨name, isAllBlank_leading right, isAllBlank_trailing right,
    ?_, ?_, ?_⟩, htext⟩
  · rw [holds.text]
    exact trimmed_trim right
  · rw [holds.text]
    exact holds.ne_nil
  · rw [htext, hright]
    exact single

/-- A statement with a slot comes from parts that hold it. -/
theorem exists_parts (hs : (v.classify joined segment).slot? = some slot) :
    ∃ (p : Parts) (unit : Text), p.Framed ∧
      HoldsSlot v p.slot.text p.slot unit ∧
      p.text = segment ∧ p.whole = slot := by
  unfold classify at hs
  split at hs
  · cases hs
  split at hs
  swap
  · cases hs
  next left sign right single =>
  split at hs
  swap
  · cases hs
  next name =>
  obtain ⟨inner, unit, holds, hplace⟩ := exists_of_classifyRight hs
  obtain ⟨framed, htext⟩ := framed_of_single single name holds
  refine ⟨_, unit, framed, ?_, htext, hplace⟩
  rw [holds.text]
  exact holds

/-! ## Another literal -/

theorem name?_classifyRight (v : Vocabulary) (joined : Bool)
    (name front right : Text) :
    (v.classifyRight joined name front right).name? = some name := by
  unfold classifyRight
  dsimp only
  split
  · rfl
  split
  · rfl
  split <;> rfl

/-- The slot of a statement stands in the segment. -/
theorem slot_text (hs : (v.classify joined segment).slot? = some slot) :
    slot.text = segment := by
  obtain ⟨p, unit, -, -, htext, rfl⟩ := exists_parts hs
  rw [p.whole_text, htext]

/-- With another literal in its slot, a segment gives the same name. -/
theorem name?_classify_fill (hs : (v.classify joined segment).slot? = some slot)
    {literal : Text} (mild : Mild literal) :
    (v.classify joined (slot.fill literal)).name? =
      (v.classify joined segment).name? := by
  obtain ⟨p, unit, framed, holds, rfl, rfl⟩ := exists_parts hs
  rw [p.whole_fill, framed.classify, (framed.fill holds mild).classify,
    name?_classifyRight, name?_classifyRight]
  rfl

/-- No brace closes between the margins of an interior, with a mild text between
them. -/
theorem not_mem_between (inside : Text) {literal : Text} (mild : Mild literal) :
    '}' ∉ leading inside ++ (literal ++ trailing inside) := by
  have brace : isBlank '}' = false := by decide
  have blank {margin : Text} (h : isAllBlank margin = true) : '}' ∉ margin := by
    intro mem
    rw [isBlank_of_mem h _ mem] at brace
    cases brace
  have apart : '}' ∉ literal := by
    intro mem
    exact ne_brace_of_isMild (mild.chars _ mem) rfl
  simp only [List.mem_append, not_or]
  exact ⟨blank (isAllBlank_leading inside), apart,
    blank (isAllBlank_trailing inside)⟩

/-- A literal takes the place of the trimmed interior, whose margins stay. -/
theorem bracedSlot_between (gap inside rest : Text) {literal : Text}
    (mild : Mild literal) :
    bracedSlot gap (leading inside ++ (literal ++ trailing inside)) rest =
      { bracedSlot gap inside rest with literal } := by
  have blankLeading := isAllBlank_leading inside
  have blankTrailing := isAllBlank_trailing inside
  rw [bracedSlot, leading_between blankLeading mild.trimmed mild.ne,
    trim_between blankLeading blankTrailing mild.trimmed mild.ne,
    trailing_between blankLeading blankTrailing mild.trimmed mild.ne]
  rfl

/-- With another literal between its braces, an input declares the same name in
the same unit, and the literal is what its slot holds. -/
theorem classify_refill_braced
    (hs : (v.classify joined segment).slot? = some slot)
    (braced : Braced (v.classify joined segment).body) {literal : Text}
    (mild : Mild literal) :
    ∃ form name unit body body',
      v.classify joined segment = .declared form name (some slot) unit body ∧
      v.classify joined (slot.fill literal) =
        .declared form name (some { slot with literal }) unit body' ∧
      Braced body' := by
  obtain ⟨p, unit, framed, holds, rfl, rfl⟩ := exists_parts hs
  cases holds with
  | bare read hslot hunit =>
    rw [classify_bare joined framed read hslot hunit] at braced
    exact absurd braced (not_braced_of_read? read)
  | @braced gap inside rest _ blank closed hbody hslot hunit =>
    have refilled := framed.fill (.braced blank closed hbody hslot hunit) mild
    have inner : (p.fill literal).slot =
        bracedSlot gap
          (leading inside ++ (literal ++ trailing inside)) rest := by
      rw [bracedSlot_between gap inside rest mild, ← hslot, Parts.fill]
    have body : (p.fill literal).slot.text =
        bracedBody gap
          (leading inside ++ (literal ++ trailing inside)) rest := by
      rw [inner, bracedSlot_text]
    -- The first brace that closes after the literal is the one that closed the
    -- old interior.
    have closed' := not_mem_between inside mild
    have new := classify_braced joined refilled blank closed' body inner hunit
    refine ⟨_, _, _, _, _,
      classify_braced joined framed blank closed hbody hslot hunit, ?_,
      ⟨_, _, _, blank, closed', body⟩⟩
    rw [p.whole_fill, new]
    rfl

/-- With a number between its braces, an input keeps its kind, name and unit and
has the number as its value. -/
theorem classify_fill_braced
    (hs : (v.classify joined segment).slot? = some slot)
    (braced : Braced (v.classify joined segment).body) {m : Decimal.Numeral}
    (written : m.Written Char.isDigit) :
    Statement.Revalued (v.classify joined segment)
      (v.classify joined (slot.fill m.text))
      m.value := by
  obtain ⟨form, name, unit, body, body', old, new, -⟩ :=
    classify_refill_braced hs braced (Mild.of_written written)
  rw [old, new]
  exact Statement.revalued_of_literal written rfl

/-- With a number in its slot that is read alone there, a segment declares the
same name in the same unit, and the number is what its slot holds. In braces
every number is read alone. -/
theorem classify_refill (hs : (v.classify joined segment).slot? = some slot)
    {m : Decimal.Numeral} (written : m.Written Char.isDigit)
    (alone : ∀ n rest, Decimal.Numeral.read? (v.classify joined segment).body =
      some (n, rest) →
      Decimal.Numeral.read? (m.text ++ rest) = some (m, rest)) :
    ∃ form name unit body body',
      v.classify joined segment = .declared form name (some slot) unit body ∧
      v.classify joined (slot.fill m.text) =
        .declared form name
          (some { slot with literal := m.text }) unit body' := by
  obtain ⟨p, unit, framed, holds, rfl, rfl⟩ := exists_parts hs
  have mild := Mild.of_written written
  have refilled := framed.fill holds mild
  cases holds with
  | @braced gap inside rest _ blank closed hbody hslot hunit =>
    have old := classify_braced joined framed blank closed hbody hslot hunit
    have braced : Braced (v.classify joined p.text).body := by
      rw [old]
      exact ⟨_, _, _, blank, closed, hbody⟩
    obtain ⟨form, name, unit, body, body', old, new, -⟩ :=
      classify_refill_braced hs braced mild
    exact ⟨form, name, unit, body, body', old, new⟩
  | @bare n rest _ read hslot hunit =>
    have old := classify_bare joined framed read hslot hunit
    have inner : (p.fill m.text).slot = ⟨[], m.text, rest⟩ := by
      rw [Parts.fill, hslot]
    have body : (p.fill m.text).slot.text = m.text ++ rest := by
      rw [inner]
      rfl
    have read' : Decimal.Numeral.read? (m.text ++ rest) = some (m, rest) := by
      apply alone n
      rw [old]
      exact read
    have new :=
      classify_bare joined refilled (by rw [body]; exact read') inner hunit
    exact ⟨_, _, _, _, _, old, by rw [p.whole_fill, new]; rfl⟩

/-- A right side that is no input, and no number with a unit, declares
nothing. -/
theorem classify_neither (h : p.Framed) (input : v.input? p.slot.text = none)
    (literal : v.literal? p.slot.text = none) :
    (v.classify joined p.text).kind.isDeclaration = false := by
  rw [h.classify, classifyRight]
  simp only [h.trim_right, input, literal]
  split <;> rfl

/-- Parts with another cut of the same right side are framed alike. -/
theorem Parts.Framed.recut (h : p.Framed) {cut : Slot}
    (same : cut.text = p.slot.text) :
    Parts.Framed { p with slot := cut } ∧
      Parts.text { p with slot := cut } = p.text := by
  have right : Parts.right { p with slot := cut } = p.right := by
    rw [right, same, right]
  have text : Parts.text { p with slot := cut } = p.text := by
    rw [text, right, text]
  refine ⟨⟨h.name, h.blank_before, h.blank_after, ?_, ?_, ?_⟩, text⟩
  · rw [same]
    exact h.trimmed
  · rw [same]
    exact h.ne
  · rw [text, right]
    exact h.only

/-- A declaration whose number takes a part of the text that a unit should come
from has a shorter unit. -/
theorem unit_shorter (h : p.Framed) {m : Decimal.Numeral}
    {literal more rest : Text}
    (read : Decimal.Numeral.read? p.slot.text = some (m, rest))
    (htext : m.text = literal ++ more) (ne : more ≠ [])
    (kind : (v.classify joined p.text).kind.isDeclaration = true) :
    (v.classify joined p.text).unit.length <
      (trimStart (more ++ rest)).length := by
  have join := Decimal.Numeral.text_append_of_readWith? read
  obtain ⟨c, more', hmore⟩ := List.exists_cons_of_ne_nil ne
  have mem : c ∈ m.text := by simp [htext, hmore]
  have head := not_isBlank_of_numeral
    ((Decimal.Numeral.written_of_readWith? read).mem_text mem)
  have whole : trimStart (more ++ rest) = more ++ rest := by
    simp [trimStart, hmore, head]
  have input := input?_eq_none (v := v) (head?_of_read? read)
  cases hunit : v.wholeUnit? (trimStart rest) with
  | none =>
    have none : v.literal? p.slot.text = none := by
      rw [literal?, read]
      simp only [hunit, Option.map_none]
    rw [classify_neither h input none] at kind
    cases kind
  | some unit =>
    obtain ⟨recut, text⟩ :=
      h.recut (show Slot.text ⟨[], m.text, rest⟩ = p.slot.text from join)
    have short : (trimStart rest).length ≤ rest.length :=
      (List.dropWhile_sublist _).length_le
    rw [← text, classify_bare joined recut (by rwa [← join] at read) rfl hunit,
      whole, List.length_append, hmore, List.length_cons]
    rw [(wholeUnit?_eq_some hunit).1.symm] at short
    show unit.length < _
    omega

/-- A number before a unit is read alone when its statement declares a value in
that unit. -/
theorem read_alone (h : p.Framed) {m : Decimal.Numeral}
    (written : m.Written Char.isDigit) {rest : Text}
    (body : p.slot.text = m.text ++ rest)
    (hunit : v.wholeUnit? (trimStart rest) = some unit)
    (kind : (v.classify joined p.text).kind.isDeclaration = true)
    (same : (v.classify joined p.text).unit = unit) :
    Decimal.Numeral.read? (m.text ++ rest) = some (m, rest) := by
  obtain ⟨m', more, rest', read, htext, hrest⟩ :=
    Decimal.Numeral.exists_readWith?_text_append Decimal.marksApart_isDigit
      written rest
  by_cases ne : more = []
  · rw [ne, List.append_nil] at htext
    rw [ne, List.nil_append] at hrest
    have written' := Decimal.Numeral.written_of_readWith? read
    have equal :=
      written'.eq_of_text_eq Decimal.marksApart_isDigit written htext
    rw [Decimal.Numeral.read?, read, equal, hrest]
  · -- The number takes a part of the unit, and what is left is too short to be
    -- all of it.
    exfalso
    have shorter := unit_shorter h (by rw [body]; exact read) htext ne kind
    rw [same, ← hrest, ← (wholeUnit?_eq_some hunit).1] at shorter
    exact Nat.lt_irrefl _ shorter

/-- With another number as its bare literal, a statement keeps its kind, name
and unit and has the number as its value just when that number is read alone. -/
theorem classify_fill_bare (hs : (v.classify joined segment).slot? = some slot)
    (bare : ¬Braced (v.classify joined segment).body) :
    ∃ n rest, Decimal.Numeral.read? (v.classify joined segment).body =
      some (n, rest) ∧
      slot.literal = n.text ∧ (v.classify joined segment).body =
        slot.literal ++ rest ∧
      v.wholeUnit? (trimStart rest) = some (v.classify joined segment).unit ∧
      ∀ m : Decimal.Numeral, m.Written Char.isDigit →
        (Statement.Revalued (v.classify joined segment)
          (v.classify joined (slot.fill m.text))
            m.value ↔
          Decimal.Numeral.read? (m.text ++ rest) = some (m, rest)) := by
  obtain ⟨p, unit, framed, holds, rfl, rfl⟩ := exists_parts hs
  cases holds with
  | braced blank closed hbody hslot hunit =>
    rw [classify_braced joined framed blank closed hbody hslot hunit] at bare
    exact absurd ⟨_, _, _, blank, closed, hbody⟩ bare
  | @bare n rest _ read hslot hunit =>
    have old := classify_bare joined framed read hslot hunit
    have join := Decimal.Numeral.text_append_of_readWith? read
    have literal : p.whole.literal = n.text := by
      rw [Parts.whole, hslot]
      rfl
    rw [old]
    refine ⟨n, rest, read, literal, literal ▸ join.symm, hunit, ?_⟩
    intro m written
    have refilled := framed.fill (.bare read hslot hunit) (.of_written written)
    have inner : (p.fill m.text).slot = ⟨[], m.text, rest⟩ := by
      rw [Parts.fill, hslot]
    have body : (p.fill m.text).slot.text = m.text ++ rest := by
      rw [inner]
      rfl
    rw [p.whole_fill]
    constructor
    · intro revalued
      have declares :
          (v.classify joined (p.fill m.text).text).kind.isDeclaration =
            true := by
        rw [revalued.kind]
        cases joined <;> rfl
      exact read_alone refilled written body hunit declares revalued.unit
    · intro alone
      have new :=
        classify_bare joined refilled (by rw [body]; exact alone) inner hunit
      rw [new]
      exact Statement.revalued_of_literal written rfl

end

end Vocabulary
end Worksheet

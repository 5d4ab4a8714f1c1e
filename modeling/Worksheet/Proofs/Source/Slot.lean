import Mathlib.Data.List.Basic
import Mathlib.Data.List.Chain
import Worksheet.Proofs.Decimal.Numeral
import Worksheet.Proofs.Source.Assignment
import Worksheet.Proofs.Text.Trim
import Worksheet.Source.Line

/-!
# Slots and what is written into them

A right side holds a slot in braces after a question mark, or as the number that
it begins with. What is written into a slot is mild: it has no character that
could end a literal, an assignment or a line.
-/

namespace Worksheet

open Text

/-- Whether a character neither separates nor compares anything. -/
def isMild (c : Char) : Bool :=
  !isBlank c && !Vocabulary.comparesBefore c && !beginsComment c && c != '}'

/-- A text that can be written into a slot. -/
structure Mild (s : Text) : Prop where
  ne : s ≠ []
  chars : ∀ c ∈ s, isMild c = true

/-- A property of the ten digits can be checked on their codes. -/
theorem eq_of_isDigit {f : Char → Bool} {b : Bool}
    (h : ∀ n < 58, 48 ≤ n → f (Char.ofNat n) = b) {c : Char}
    (hc : c.isDigit = true) : f c = b := by
  rw [Char.isDigit, Bool.and_eq_true, decide_eq_true_eq,
    decide_eq_true_eq] at hc
  have low : 48 ≤ c.toNat := UInt32.le_iff_toNat_le.1 hc.1
  have high : c.toNat ≤ 57 := UInt32.le_iff_toNat_le.1 hc.2
  have checked := h c.toNat (by omega) low
  rwa [Char.ofNat_toNat] at checked

theorem isMild_of_isDigit {c : Char} (h : c.isDigit = true) : isMild c = true :=
  eq_of_isDigit (by decide) h

/-- A numeral with ASCII digits is mild. -/
theorem Mild.of_written {n : Decimal.Numeral} (h : n.Written Char.isDigit) :
    Mild n.text := by
  constructor
  · obtain ⟨c, s, hs, -⟩ := h.head_text
    simp [hs]
  · intro c hc
    rcases h.mem_text hc with digit | mark
    · exact isMild_of_isDigit digit
    · exact Decimal.eq_of_mem_marks (by decide) mark

section

variable {c : Char} (h : isMild c = true)

include h

theorem isBlank_of_isMild : isBlank c = false := by
  simp only [isMild, Bool.and_eq_true, Bool.not_eq_true'] at h
  exact h.1.1.1

theorem comparesBefore_of_isMild : Vocabulary.comparesBefore c = false := by
  simp only [isMild, Bool.and_eq_true, Bool.not_eq_true'] at h
  exact h.1.1.2

theorem isEquals_of_isMild : Vocabulary.isEquals c = false := by
  have compares := comparesBefore_of_isMild h
  simp only [Vocabulary.comparesBefore, Bool.or_eq_false_iff] at compares
  exact compares.1.1.1.1.1

theorem beginsComment_of_isMild : beginsComment c = false := by
  simp only [isMild, Bool.and_eq_true, Bool.not_eq_true'] at h
  exact h.1.2

theorem ne_brace_of_isMild : c ≠ '}' := by
  simp only [isMild, Bool.and_eq_true, bne_iff_ne] at h
  exact h.2

end

theorem Mild.not_isBlank {s : Text} (h : Mild s) :
    ∀ c ∈ s, isBlank c = false := by
  intro c hc
  exact isBlank_of_isMild (h.chars c hc)

theorem Mild.trimmed {s : Text} (h : Mild s) : Trimmed s :=
  .of_not_isBlank h.not_isBlank

theorem Mild.isEquals {s : Text} (h : Mild s) :
    ∀ c ∈ s, Vocabulary.isEquals c = false := by
  intro c hc
  exact isEquals_of_isMild (h.chars c hc)

theorem Mild.comparesBefore_last {s : Text} (h : Mild s) :
    s.getLast?.any Vocabulary.comparesBefore = false := by
  cases hs : s.getLast? with
  | none => rfl
  | some c =>
    exact comparesBefore_of_isMild (h.chars c (List.mem_of_mem_getLast? hs))

theorem isEquals_of_isBlank {c : Char} (h : isBlank c = true) :
    Vocabulary.isEquals c = false := by
  cases equals : Vocabulary.isEquals c with
  | false => rfl
  | true =>
    simp only [Vocabulary.isEquals, Bool.or_eq_true, beq_iff_eq] at equals
    rcases equals with rfl | rfl <;> exact absurd h (by decide)

/-! ## Inputs in braces -/

namespace Vocabulary

/-- A right side with braces after a question mark. -/
def bracedBody (gap inside rest : Text) : Text :=
  '?' :: (gap ++ '{' :: (inside ++ '}' :: rest))

/-- The slot between the braces. -/
def bracedSlot (gap inside rest : Text) : Slot :=
  ⟨'?' :: (gap ++ '{' :: leading inside), trim inside,
    trailing inside ++ '}' :: rest⟩

/-- A right side has braces when, after the question mark and blanks, one opens
and one closes. -/
def Braced (body : Text) : Prop :=
  ∃ gap inside rest, isAllBlank gap = true ∧ '}' ∉ inside ∧
    body = bracedBody gap inside rest

theorem bracedSlot_text (gap inside rest : Text) :
    (bracedSlot gap inside rest).text = bracedBody gap inside rest := by
  have parts := leading_append_trim_append_trailing inside
  conv => rhs; rw [← parts]
  simp [bracedSlot, bracedBody, Slot.text]

theorem cutAtChar?_append {mark : Char} {s : Text} (h : mark ∉ s) (t : Text) :
    cutAtChar? mark (s ++ mark :: t) = some (s, t) := by
  induction s with
  | nil => simp [cutAtChar?]
  | cons c s ih =>
    rw [List.mem_cons, not_or] at h
    rw [List.cons_append, cutAtChar?, if_neg (Ne.symm h.1), ih h.2]
    rfl

theorem cutAtChar?_join {mark : Char} {s a b : Text}
    (h : cutAtChar? mark s = some (a, b)) :
    s = a ++ mark :: b ∧ mark ∉ a := by
  induction s generalizing a with
  | nil => cases h
  | cons c s ih =>
    rw [cutAtChar?] at h
    split at h
    · next hc =>
      cases h
      exact ⟨by rw [hc]; rfl, List.not_mem_nil⟩
    · next hc =>
      obtain ⟨⟨a', b'⟩, ha, he⟩ := Option.map_eq_some_iff.1 h
      cases he
      obtain ⟨rfl, absent⟩ := ih ha
      exact ⟨rfl, by simp [Ne.symm hc, absent]⟩

theorem input?_bracedBody (v : Vocabulary) {gap inside : Text}
    (hgap : isAllBlank gap = true) (closed : '}' ∉ inside) (rest : Text) :
    v.input? (bracedBody gap inside rest) =
      (v.wholeUnit? (trim rest)).map fun unit =>
        (some (bracedSlot gap inside rest), unit) := by
  have brace : isBlank '{' = false := by decide
  have opens : ('{' :: (inside ++ '}' :: rest)).head?.any isBlank = false :=
    brace
  rw [bracedBody, input?, trimStart_append hgap opens]
  simp only [cutAtChar?_append closed, leading_append hgap opens, bracedSlot]

/-- An input with a slot has braces. -/
theorem exists_bracedBody {v : Vocabulary} {body unit : Text} {slot : Slot}
    (h : v.input? body = some (some slot, unit)) :
    ∃ gap inside rest, isAllBlank gap = true ∧ '}' ∉ inside ∧
      body = bracedBody gap inside rest ∧
      slot = bracedSlot gap inside rest ∧
      v.wholeUnit? (trim rest) = some unit := by
  unfold input? at h
  split at h
  · next marked =>
    split at h
    · next braced hstart =>
      split at h
      · next inside rest hcut =>
        obtain ⟨hbraced, closed⟩ := cutAtChar?_join hcut
        obtain ⟨unit', hunit, he⟩ := Option.map_eq_some_iff.1 h
        cases he
        have parts := leading_append_trimStart marked
        rw [hstart, hbraced] at parts
        refine ⟨leading marked, inside, rest, isAllBlank_leading marked, closed,
          ?_, rfl, hunit⟩
        rw [bracedBody, parts]
      · cases h
    · obtain ⟨unit', -, he⟩ := Option.map_eq_some_iff.1 h
      cases he
  · cases h

theorem input?_eq_none {v : Vocabulary} {body : Text}
    (h : body.head? ≠ some '?') :
    v.input? body = none := by
  unfold input?
  split
  · exact absurd rfl h
  · rfl

theorem head?_of_read? {body rest : Text} {n : Decimal.Numeral}
    (h : Decimal.Numeral.read? body = some (n, rest)) :
    body.head? ≠ some '?' := by
  have join := Decimal.Numeral.text_append_of_readWith? h
  obtain ⟨c, s, hs, hc⟩ := (Decimal.Numeral.written_of_readWith? h).head_text
  rw [← join, hs]
  intro eq
  obtain rfl : c = '?' := Option.some.inj eq
  revert hc
  decide

theorem not_braced_of_read? {body rest : Text} {n : Decimal.Numeral}
    (h : Decimal.Numeral.read? body = some (n, rest)) : ¬Braced body := by
  rintro ⟨gap, inside, rest', -, -, rfl⟩
  exact head?_of_read? h rfl

/-! ## Units -/

theorem wholeUnit?_eq_some {v : Vocabulary} {s unit : Text}
    (h : v.wholeUnit? s = some unit) :
    unit = s ∧ v.unitToken s = s := by
  unfold wholeUnit? at h
  split at h
  · next token => exact ⟨(Option.some.inj h).symm, token⟩
  · cases h

theorem unitRun_prefix (v : Vocabulary) (before : Char) (s : Text) :
    (v.unitRun before s).length ≤ s.length ∧
      ((v.unitRun before s).length = s.length →
        v.isUnitTail before s = true) := by
  induction s generalizing before with
  | nil => exact ⟨Nat.le_refl _, fun _ => rfl⟩
  | cons c s ih =>
    obtain ⟨short, whole⟩ := ih c
    rw [unitRun, isUnitTail]
    split
    · next continues =>
      simp only [List.length_cons, continues, Bool.true_and]
      exact ⟨by omega, fun h => whole (by omega)⟩
    · simp

/-- A text that is one unit token begins and goes on like a unit. -/
theorem unitToken_eq_self {v : Vocabulary} {c : Char} {s : Text}
    (h : v.unitToken (c :: s) = c :: s) :
    v.isUnitStart c = true ∧ v.isUnitTail c s = true := by
  rw [unitToken] at h
  split at h
  · next start =>
    -- The token is a part of the run, and the run a part of the text, so all
    -- three are as long.
    have join :=
      dropEndWhile_append_takeEndWhile unitJoiners.contains (c :: v.unitRun c s)
    have length := congrArg List.length join
    rw [h, List.length_append, List.length_cons, List.length_cons] at length
    obtain ⟨short, whole⟩ := unitRun_prefix v c s
    exact ⟨start, whole (by omega)⟩
  · cases h

/-- The texts that are one unit. -/
structure UnitToken (v : Vocabulary) (s : Text) : Prop where
  first : s.head?.any v.isUnitStart = true
  later : s.IsChain fun before c => v.isUnitChar c = true ∨ c = '-' ∧
    before = '^'
  last : s.getLast?.any unitJoiners.contains = false

theorem isUnitTail_iff {v : Vocabulary} {before : Char} {s : Text} :
    v.isUnitTail before s = true ↔
      (before :: s).IsChain fun before c => v.isUnitChar c = true ∨ c = '-' ∧
        before = '^' := by
  induction s generalizing before with
  | nil => simp [isUnitTail]
  | cons c s ih => simp [isUnitTail, continuesUnit, ih]

theorem unitRun_of_isUnitTail {v : Vocabulary} {before : Char} {s : Text}
    (h : v.isUnitTail before s = true) : v.unitRun before s = s := by
  induction s generalizing before with
  | nil => rfl
  | cons c s ih =>
    rw [isUnitTail, Bool.and_eq_true] at h
    rw [unitRun, if_pos h.1, ih h.2]

theorem unitToken_eq_self_iff {v : Vocabulary} {s : Text} :
    v.unitToken s = s ↔ s = [] ∨ v.UnitToken s := by
  cases s with
  | nil => simp [unitToken]
  | cons c s =>
    constructor
    · intro whole
      obtain ⟨start, tail⟩ := unitToken_eq_self whole
      refine .inr ⟨start, isUnitTail_iff.1 tail, ?_⟩
      rw [unitToken, if_pos start] at whole
      rw [← whole]
      exact getLast?_dropEndWhile_any _ _
    · rintro (nil | ⟨start, chain, last⟩)
      · cases nil
      · have begins : v.isUnitStart c = true := start
        rw [unitToken, if_pos begins,
          unitRun_of_isUnitTail (isUnitTail_iff.2 chain),
          dropEndWhile_of_last last]

theorem wholeUnit?_eq_some_iff {v : Vocabulary} {s unit : Text} :
    v.wholeUnit? s = some unit ↔ unit = s ∧ (s = [] ∨ v.UnitToken s) := by
  rw [← unitToken_eq_self_iff]
  constructor
  · exact wholeUnit?_eq_some
  · rintro ⟨rfl, whole⟩
    rw [wholeUnit?, if_pos whole]

theorem not_isBlank_of_isUnitChar {v : Vocabulary} {c : Char}
    (h : v.isUnitChar c = true) :
    isBlank c = false := by
  by_contra blank
  rw [Bool.not_eq_false] at blank
  have symbols : unitSymbols.contains c = false :=
    eq_of_isBlank (by decide) blank
  rw [isUnitChar, not_isAlphanumeric_of_isBlank blank, symbols, addsUnitChar,
    blank] at h
  simp at h

theorem not_isBlank_of_isUnitStart {v : Vocabulary} {c : Char}
    (h : v.isUnitStart c = true) :
    isBlank c = false := by
  by_contra blank
  rw [Bool.not_eq_false] at blank
  have symbols : unitStartSymbols.contains c = false :=
    eq_of_isBlank (by decide) blank
  have letter : isAlphabetic c = false := by
    rw [← Bool.not_eq_true]
    intro letter
    have word := isAlphanumeric_of_isAlphabetic letter
    rw [not_isAlphanumeric_of_isBlank blank] at word
    cases word
  rw [isUnitStart, letter, symbols, addsUnitChar, blank] at h
  simp at h

theorem isUnitChar_of_isUnitTail {v : Vocabulary} {before c : Char} {s : Text}
    (h : v.isUnitTail before s = true) (hc : c ∈ s) :
    v.isUnitChar c = true ∨ c = '-' := by
  induction s generalizing before with
  | nil => cases hc
  | cons d s ih =>
    rw [isUnitTail, Bool.and_eq_true, continuesUnit, Bool.or_eq_true,
      Bool.and_eq_true, beq_iff_eq] at h
    rcases List.mem_cons.1 hc with rfl | hc
    · exact h.1.imp_right And.left
    · exact ih h.2 hc

theorem UnitToken.of_mem {v : Vocabulary} {c : Char} {s : Text}
    (h : v.UnitToken s) (hc : c ∈ s) :
    v.isUnitStart c = true ∨ v.isUnitChar c = true ∨ c = '-' := by
  obtain ⟨first, later, -⟩ := h
  cases s with
  | nil => cases hc
  | cons d s =>
    rcases List.mem_cons.1 hc with rfl | hc
    · exact .inl first
    · exact .inr (isUnitChar_of_isUnitTail (isUnitTail_iff.2 later) hc)

/-- A unit holds no blanks. -/
theorem UnitToken.not_isBlank {v : Vocabulary} {s : Text} (h : v.UnitToken s) :
    ∀ c ∈ s, isBlank c = false := by
  intro c hc
  rcases h.of_mem hc with start | char | rfl
  · exact not_isBlank_of_isUnitStart start
  · exact not_isBlank_of_isUnitChar char
  · decide

theorem UnitToken.trimmed {v : Vocabulary} {s : Text} (h : v.UnitToken s) :
    Trimmed s :=
  .of_not_isBlank h.not_isBlank

theorem not_isUnitStart_of_isDigit {c : Char} (h : c.isDigit = true) :
    builtIn.isUnitStart c = false :=
  eq_of_isDigit (by decide) h

/-- What begins a number, its fraction or its power is not blank. -/
theorem not_isBlank_of_numeral {c : Char}
    (h : c.isDigit = true ∨ c ∈ Decimal.marks) :
    isBlank c = false := by
  rcases h with digit | mark
  · exact isBlank_of_isMild (isMild_of_isDigit digit)
  · exact Decimal.eq_of_mem_marks (by decide) mark

/-- What a number is followed by, when a unit with the built-in characters or
none comes next, begins with neither a digit nor a point, and with no power that
has a sign. -/
theorem builtIn_after_number {rest unit : Text}
    (h : builtIn.wholeUnit? (trimStart rest) = some unit) :
    rest.head?.any Char.isDigit = false ∧ rest.head? ≠ some '.' ∧
      (Decimal.StartsPower Char.isDigit rest ↔
        ∃ mark digit after, rest = mark :: digit :: after ∧
          (mark = 'e' ∨ mark = 'E') ∧
          digit.isDigit = true) := by
  have unsigned :
      (∃ mark digit after, rest = mark :: digit :: after ∧
      (mark = 'e' ∨ mark = 'E') ∧
      digit.isDigit = true) → Decimal.StartsPower Char.isDigit rest := by
    rintro ⟨mark, digit, after, hrest, hmark, hdigit⟩
    exact ⟨mark, [], digit, after, hrest, hmark, Or.inl rfl, hdigit⟩
  cases rest with
  | nil =>
    refine ⟨rfl, by simp, ?_, unsigned⟩
    rintro ⟨mark, sign, digit, after, hrest, -⟩
    cases hrest
  | cons c rest =>
    by_cases blank : isBlank c = true
    · -- A number, a fraction and a power do not begin with a blank.
      have apart (mark : c.isDigit = true ∨ c ∈ Decimal.marks) : False := by
        rw [not_isBlank_of_numeral mark] at blank
        cases blank
      refine ⟨?_, ?_, ?_, unsigned⟩
      · rw [List.head?_cons, Option.any_some, Bool.eq_false_iff]
        intro digit
        exact apart (Or.inl digit)
      · intro point
        obtain rfl : c = '.' := Option.some.inj point
        exact apart (Or.inr (by decide))
      · rintro ⟨mark, sign, digit, after, hrest, hmark, -⟩
        obtain ⟨rfl, -⟩ := List.cons.inj hrest
        exfalso
        rcases hmark with rfl | rfl <;> exact apart (Or.inr (by decide))
    · have start : trimStart (c :: rest) = c :: rest := by
        simp [trimStart, blank]
      rw [start] at h
      obtain ⟨begins, continues⟩ := unitToken_eq_self (wholeUnit?_eq_some h).2
      refine ⟨?_, ?_, ?_, unsigned⟩
      · rw [List.head?_cons, Option.any_some, Bool.eq_false_iff]
        intro digit
        rw [not_isUnitStart_of_isDigit digit] at begins
        cases begins
      · intro point
        obtain rfl : c = '.' := Option.some.inj point
        exact absurd begins (by decide)
      · -- A sign does not continue a unit after the mark of a power.
        rintro ⟨mark, sign, digit, after, hrest, hmark, hsign, hdigit⟩
        obtain ⟨rfl, rfl⟩ := List.cons.inj hrest
        rcases hsign with rfl | rfl | rfl
        · exact ⟨c, digit, after, rfl, hmark, hdigit⟩
        · rw [List.singleton_append, isUnitTail, Bool.and_eq_true] at continues
          rcases hmark with rfl | rfl <;> exact absurd continues.1 (by decide)
        · rw [List.singleton_append, isUnitTail, Bool.and_eq_true] at continues
          rcases hmark with rfl | rfl <;> exact absurd continues.1 (by decide)

end Vocabulary
end Worksheet

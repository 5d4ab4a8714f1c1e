import Mathlib.Data.Bool.AllAny
import Mathlib.Data.List.Infix
import Worksheet.Proofs.Decimal.Value
import Worksheet.Proofs.Result.Scalar

/-!
# Numbers in sources and in outputs

A source is read for numerals with ASCII digits, an output for scalars: a
mantissa times a power of ten anywhere in the text, or else a numeral in digits
of every script behind the leading blanks. In a text without such a power of ten
and without digits beyond ASCII, the scalar is the numeral that reading a source
finds behind the blanks.
-/

namespace Worksheet

open Text Decimal

/-! ## Powers of ten as a pattern -/

/-- The texts that are a numeral without a power, in digits of every script. -/
def IsMantissa (s : Text) : Prop :=
  ∃ n : Numeral, n.Written isDecimalDigit ∧ n.power = none ∧ n.text = s

/-- The texts that are digits of every script with a sign or none. -/
def IsInteger (s : Text) : Prop :=
  ∃ n : Numeral, n.Written isDecimalDigit ∧ n.fraction = [] ∧
    n.power = none ∧ n.text = s

/-- The texts that are a power of ten: `10`, `^` and an integer in optional
parentheses, with blanks in front of each and of the closing parenthesis. -/
inductive IsTenPower : Text → Prop
  | mk {gap₁ gap₂ gap₃ opening gap₄ e gap₅ closing : Text}
    (blank : ∀ gap ∈ [gap₁, gap₂, gap₃, gap₄, gap₅], isAllBlank gap = true)
    (exponent : IsInteger e) (opens : opening = [] ∨ opening = ['('])
    (closes : closing = [] ∨ closing = [')']) :
    IsTenPower (gap₁ ++ '1' :: '0' :: (gap₂ ++ '^' ::
      (gap₃ ++ (opening ++ (gap₄ ++ (e ++ (gap₅ ++ closing)))))))

/-- The texts that are a mantissa times a power of ten, with blanks in front of
the sign of multiplication. -/
inductive IsScientific : Text → Prop
  | mk {m gap power : Text} {times : Char} (mantissa : IsMantissa m)
    (blank : isAllBlank gap = true)
    (multiplies : isTimes times = true) (tenPower : IsTenPower power) :
    IsScientific (m ++ (gap ++ times :: power))

theorem isInteger_of_signedDigits? {s t rest : Text}
    (h : signedDigits? s = some (t, rest)) :
    IsInteger t := by
  have sign := takeSign_cases s
  have digits := mem_takeDigits (d := isDecimalDigit) (s := (takeSign s).2)
  unfold signedDigits? at h
  split at h
  next sign' s' hsign =>
  rw [hsign] at sign digits
  split at h
  · cases h
  · next ds rest' ne hdigits =>
    rw [hdigits] at digits
    cases h
    exact ⟨⟨sign', ds, [], none⟩, ⟨sign, ne, digits, by simp, by simp⟩, rfl,
      rfl, by simp [Numeral.text, fractionText, powerText]⟩

theorem exists_signedDigits?_append {t : Text} (h : IsInteger t) (u : Text) :
    ∃ found, signedDigits? (t ++ u) = some found := by
  obtain ⟨⟨sign, whole, fraction, power⟩, written, rfl, rfl, rfl⟩ := h
  obtain ⟨c, ds, rfl⟩ := List.exists_cons_of_ne_nil written.whole_ne
  have split := takeSign_append marksApart_isDecimalDigit written.sign
    (written.whole c List.mem_cons_self) (ds ++ u)
  have run := takeDigits_append written.whole u
  have text :
      Numeral.text ⟨sign, c :: ds, [], none⟩ ++ u = sign ++ c :: (ds ++ u) := by
    simp [Numeral.text, fractionText, powerText]
  rw [List.cons_append, List.cons_append] at run
  rw [text, signedDigits?, split]
  simp only [run]
  exact ⟨_, rfl⟩

theorem isMantissa_of_mantissa? {s t rest : Text}
    (h : mantissa? s = some (t, rest)) :
    IsMantissa t := by
  unfold mantissa? at h
  split at h
  · next whole rest' hwhole =>
    obtain ⟨⟨sign, digits, -, -⟩, written, rfl, rfl, rfl⟩ :=
      isInteger_of_signedDigits? hwhole
    have fraction := mem_takeFraction (d := isDecimalDigit) (s := rest')
    simp only [Option.some.injEq, Prod.mk.injEq] at h
    obtain ⟨rfl, -⟩ := h
    exact ⟨⟨sign, digits, (takeFraction isDecimalDigit rest').1, none⟩,
      ⟨written.sign, written.whole_ne, written.whole, fraction, by simp⟩, rfl,
      by simp [Numeral.text, fractionText, powerText]⟩
  · cases h

theorem mantissa?_of_isMantissa {t u : Text} (h : IsMantissa t)
    (stop : u.head?.any isDecimalDigit = false) (point : u.head? ≠ some '.') :
    mantissa? (t ++ u) = some (t, u) := by
  obtain ⟨n, written, power, rfl⟩ := h
  have read := mantissa?_append written stop point
  simpa [Numeral.text, power, powerText] using read

/-- An integer begins with neither a blank nor a parenthesis. -/
theorem exists_head_of_isInteger {t : Text} (h : IsInteger t) :
    ∃ c s, t = c :: s ∧ isBlank c = false ∧ c ≠ '(' := by
  obtain ⟨n, written, -, -, rfl⟩ := h
  obtain ⟨c, s, hs, hc⟩ := written.head_text
  refine ⟨c, s, hs, ?_, ?_⟩
  · rw [Bool.eq_false_iff]
    intro blank
    rcases hc with digit | rfl | rfl
    · rw [not_isDecimalDigit_of_isBlank blank] at digit
      cases digit
    · exact absurd blank (by decide)
    · exact absurd blank (by decide)
  · rintro rfl
    rcases hc with digit | eq | eq
    · exact absurd digit (by decide)
    · cases eq
    · cases eq

theorem trimStart_append_cons_of_shown {gap : Text}
    (blank : isAllBlank gap = true) {c : Char} (shown : isBlank c = false)
    (s : Text) : trimStart (gap ++ c :: s) = c :: s :=
  trimStart_append blank shown

theorem dropOptional_cases (c : Char) (s : Text) :
    ∃ t, (t = [] ∨ t = [c]) ∧ t ++ dropOptional c s = s := by
  cases s with
  | nil => exact ⟨[], .inl rfl, rfl⟩
  | cons d s =>
    rw [dropOptional]
    split
    · next eq => exact ⟨[c], .inr rfl, by rw [eq]; rfl⟩
    · exact ⟨[], .inl rfl, rfl⟩

/-- Blanks and an optional parenthesis in front of an integer are dropped. -/
theorem trimStart_dropOptional {gap opening gap' e : Text}
    (blank : isAllBlank gap = true) (opens : opening = [] ∨ opening = ['('])
    (blank' : isAllBlank gap' = true) (exponent : IsInteger e) (u : Text) :
    trimStart (dropOptional '('
      (trimStart (gap ++ (opening ++ (gap' ++ (e ++ u)))))) = e ++ u := by
  obtain ⟨c, s, hs, shown, paren⟩ := exists_head_of_isInteger exponent
  have head : (e ++ u).head?.any isBlank = false := by rw [hs]; exact shown
  rcases opens with rfl | rfl
  · have both : isAllBlank (gap ++ gap') = true := by
      rw [isAllBlank, List.all_append, Bool.and_eq_true]
      exact ⟨blank, blank'⟩
    have bare : dropOptional '(' (e ++ u) = e ++ u := by
      rw [hs]
      exact dropOptional_of_head fun eq => paren (Option.some.inj eq)
    rw [List.nil_append, ← List.append_assoc, trimStart_append both head, bare]
    exact trimStart_append (p := []) rfl head
  · have mark : isBlank '(' = false := by decide
    rw [List.singleton_append, trimStart_append_cons_of_shown blank mark,
      dropOptional, if_pos rfl, trimStart_append blank' head]

/-- The reader finds a power of ten at the front of a text just when one stands
there. -/
theorem exists_tenPower?_iff {s : Text} :
    (∃ found, tenPower? s = some found) ↔ ∃ p, p <+: s ∧ IsTenPower p := by
  constructor
  · rintro ⟨found, h⟩
    have parts₁ := leading_append_trimStart s
    unfold tenPower? at h
    split at h
    swap
    · cases h
    next s₁ hs₁ =>
    have parts₂ := leading_append_trimStart s₁
    split at h
    swap
    · cases h
    next s₂ hs₂ =>
    obtain ⟨⟨e, rest⟩, hdigits, -⟩ := Option.map_eq_some_iff.1 h
    have parts₃ := leading_append_trimStart s₂
    obtain ⟨opening, opens, parts₄⟩ := dropOptional_cases '(' (trimStart s₂)
    have parts₅ := leading_append_trimStart (dropOptional '(' (trimStart s₂))
    have parts₆ := signedDigits?_join hdigits
    have parts₇ := leading_append_trimStart rest
    obtain ⟨closing, closes, parts₈⟩ := dropOptional_cases ')' (trimStart rest)
    have blank : ∀ gap ∈ [leading s, leading s₁, leading s₂,
        leading (dropOptional '(' (trimStart s₂)), leading rest],
        isAllBlank gap = true := by
      simp [isAllBlank_leading]
    refine ⟨_, ⟨dropOptional ')' (trimStart rest), ?_⟩,
      .mk blank (isInteger_of_signedDigits? hdigits) opens closes⟩
    simp only [List.append_assoc, List.cons_append]
    rw [parts₈, parts₇, parts₆, parts₅, parts₄, parts₃, ← hs₂, parts₂, ← hs₁,
      parts₁]
  · rintro ⟨-, ⟨u, rfl⟩,
      @⟨gap₁, gap₂, gap₃, opening, gap₄, e, gap₅, closing, blank, exponent,
      opens, -⟩⟩
    have inner := trimStart_dropOptional (blank gap₃ (by simp)) opens
      (blank gap₄ (by simp)) exponent (gap₅ ++ (closing ++ u))
    obtain ⟨found, read⟩ :=
      exists_signedDigits?_append exponent (gap₅ ++ (closing ++ u))
    have one : isBlank '1' = false := by decide
    have caret : isBlank '^' = false := by decide
    simp only [List.append_assoc, List.cons_append, tenPower?,
      trimStart_append_cons_of_shown (blank gap₁ (by simp)) one,
      trimStart_append_cons_of_shown (blank gap₂ (by simp)) caret, inner, read]
    exact ⟨_, rfl⟩

/-- A sign of multiplication is no blank, no digit and no point. -/
theorem marks_of_isTimes {c : Char} (h : isTimes c = true) :
    isBlank c = false ∧ isDecimalDigit c = false ∧ c ≠ '.' := by
  simp only [isTimes, Bool.or_eq_true, beq_iff_eq] at h
  rcases h with ((rfl | rfl) | rfl) | rfl <;> decide

/-- The reader finds a mantissa times a power of ten at the front of a text just
when one stands there. -/
theorem exists_scientificAt?_iff {s : Text} :
    (∃ found, scientificAt? s = some found) ↔
      ∃ m, m <+: s ∧ IsScientific m := by
  constructor
  · rintro ⟨found, h⟩
    unfold scientificAt? at h
    split at h
    swap
    · cases h
    next m rest hmantissa =>
    have parts := mantissa?_join hmantissa
    have parts' := leading_append_trimStart rest
    split at h
    swap
    · cases h
    next times rest' hrest =>
    split at h
    swap
    · cases h
    next htimes =>
    obtain ⟨power, hpower, -⟩ := Option.map_eq_some_iff.1 h
    obtain ⟨p, ⟨u, hu⟩, tenPower⟩ := exists_tenPower?_iff.1 ⟨power, hpower⟩
    refine ⟨_, ⟨u, ?_⟩, .mk (isMantissa_of_mantissa? hmantissa)
      (isAllBlank_leading rest) htimes tenPower⟩
    simp only [List.append_assoc, List.cons_append]
    rw [hu, ← hrest, parts', parts]
  · rintro ⟨-, ⟨u, rfl⟩,
      @⟨m, gap, power, times, mantissa, blank, multiplies, tenPower⟩⟩
    obtain ⟨shown, digit, point⟩ := marks_of_isTimes multiplies
    -- Behind the mantissa stands a blank or the sign of multiplication, and
    -- both end it.
    have ends :
        (gap ++ times :: (power ++ u)).head?.any isDecimalDigit = false ∧
        (gap ++ times :: (power ++ u)).head? ≠ some '.' := by
      cases gap with
      | nil => exact ⟨digit, fun eq => point (Option.some.inj eq)⟩
      | cons c gap =>
        obtain ⟨stop, point, -⟩ := stops_of_head
          (.inr ⟨c, gap ++ times :: (power ++ u), rfl,
            isBlank_of_mem blank c List.mem_cons_self⟩)
        exact ⟨stop, point⟩
    obtain ⟨found, read⟩ :=
      exists_tenPower?_iff.2 ⟨power, List.prefix_append power u, tenPower⟩
    simp only [List.append_assoc, List.cons_append, scientificAt?,
      mantissa?_of_isMantissa mantissa ends.1 ends.2,
      trimStart_append_cons_of_shown blank shown, multiplies, if_true, read]
    exact ⟨_, rfl⟩

theorem not_isScientific_nil : ¬IsScientific [] := by
  intro h
  obtain ⟨found, read⟩ := exists_scientificAt?_iff.2 ⟨[], List.nil_prefix, h⟩
  have nothing : scientificAt? [] = none := rfl
  rw [nothing] at read
  cases read

/-- Nothing is found just when no part of the text is a mantissa times a power
of ten. -/
theorem findScientific?_eq_none_iff {s : Text} :
    findScientific? s = none ↔ ∀ m, m <:+: s → ¬IsScientific m := by
  induction s with
  | nil =>
    refine ⟨fun _ m hm h => ?_, fun _ => rfl⟩
    rw [List.infix_nil.1 hm] at h
    exact not_isScientific_nil h
  | cons c s ih =>
    rw [findScientific?]
    cases found : scientificAt? (c :: s) with
    | some x =>
      obtain ⟨m, front, h⟩ := exists_scientificAt?_iff.1 ⟨x, found⟩
      constructor
      · intro nothing
        cases nothing
      · intro nowhere
        exact absurd h (nowhere m front.isInfix)
    | none =>
      have apart : ∀ m, m <+: c :: s → ¬IsScientific m := by
        intro m front h
        obtain ⟨x, read⟩ := exists_scientificAt?_iff.2 ⟨m, front, h⟩
        rw [found] at read
        cases read
      rw [ih]
      constructor
      · intro nowhere m hm
        rcases List.infix_cons_iff.1 hm with front | inside
        · exact apart m front
        · exact nowhere m inside
      · intro nowhere m hm
        exact nowhere m (List.infix_cons hm)

/-! ## Digits that are read alike -/

section

variable {d d' : Char → Bool} {s : Text}

theorem takeDigits_congr (h : ∀ c ∈ s, d c = d' c) :
    takeDigits d s = takeDigits d' s := by
  induction s with
  | nil => rfl
  | cons c s ih =>
    have rest := ih fun x hx => h x (List.mem_cons_of_mem c hx)
    simp only [takeDigits, Prod.mk.injEq] at rest
    simp only [takeDigits, List.takeWhile_cons, List.dropWhile_cons,
      h c List.mem_cons_self, rest.1, rest.2]

theorem takeFraction_congr (h : ∀ c ∈ s, d c = d' c) :
    takeFraction d s = takeFraction d' s := by
  rw [takeFraction.eq_def, takeFraction.eq_def]
  split
  · next s => rw [takeDigits_congr fun c hc => h c (List.mem_cons_of_mem _ hc)]
  · rfl

theorem takePower_congr (h : ∀ c ∈ s, d c = d' c) :
    takePower d s = takePower d' s := by
  cases s with
  | nil => rfl
  | cons c s =>
    have alike :
        takeDigits d (takeSign s).2 = takeDigits d' (takeSign s).2 := by
      apply takeDigits_congr
      intro x hx
      have mem : x ∈ (takeSign s).1 ++ (takeSign s).2 :=
        List.mem_append_right _ hx
      rw [takeSign_join] at mem
      exact h x (List.mem_cons_of_mem c mem)
    simp only [takePower, alike]

/-- A numeral is read alike with two kinds of digits that are the same in the
text. -/
theorem readWith?_congr (h : ∀ c ∈ s, d c = d' c) :
    Numeral.readWith? d s = Numeral.readWith? d' s := by
  have sign := takeSign_join s
  have h₁ : ∀ c ∈ (takeSign s).2, d c = d' c := by
    intro c hc
    exact h c (sign ▸ List.mem_append_right _ hc)
  simp only [Numeral.readWith?, takeDigits_congr h₁]
  split
  · rfl
  · next whole s₂ _ hdigits =>
    have digits := takeDigits_join d' (takeSign s).2
    rw [hdigits] at digits
    have h₂ : ∀ c ∈ s₂, d c = d' c := by
      intro c hc
      exact h₁ c (digits ▸ List.mem_append_right _ hc)
    have fraction := takeFraction_join d' s₂
    have h₃ : ∀ c ∈ (takeFraction d' s₂).2, d c = d' c := by
      intro c hc
      exact h₂ c (fraction ▸ List.mem_append_right _ hc)
    rw [takeFraction_congr h₂, takePower_congr h₃]

end

/-! ## The scalar of a text -/

/-- Where the only decimal digits are those of ASCII, numerals are read alike in
both kinds. -/
theorem readWith?_isDecimalDigit {s : Text}
    (ascii : ∀ c ∈ s, isDecimalDigit c = true → c.toNat < 128) :
    Numeral.readWith? isDecimalDigit s = Numeral.read? s := by
  refine readWith?_congr fun c hc => ?_
  cases digit : isDecimalDigit c with
  | true =>
    rw [isDecimalDigit, if_pos (ascii c hc digit)] at digit
    exact digit.symm
  | false =>
    rw [eq_comm, Bool.eq_false_iff]
    intro other
    rw [isDecimalDigit_of_isDigit other] at digit
    cases digit

theorem numeralSize_eq_zero_iff {s : Text} :
    numeralSize s = 0 ↔ Numeral.read? s = none := by
  rw [numeralSize]
  cases read : Numeral.read? s with
  | none => exact ⟨fun _ => rfl, fun _ => rfl⟩
  | some found =>
    obtain ⟨n, rest⟩ := found
    constructor
    · intro size
      have empty : IsNumeral [] :=
        ⟨n, Numeral.written_of_readWith? read, eq_nil_of_size_eq_zero size⟩
      exact absurd empty not_isNumeral_nil
    · intro none
      cases none

/-- A source and an output are read for the same numbers: a source for the
longest numeral at its front, and an output without a power of ten and without
digits beyond ASCII for the numeral that reading a source finds behind the
leading blanks. -/
theorem scalar?_eq_numeral :
    (∀ (s : Text) (n : Nat), numeralSize s = n ↔ LongestSize IsNumeral s n) ∧
    ∀ blanks s : Text, isAllBlank blanks = true → s.head?.any isBlank = false →
      (∀ c ∈ blanks ++ s, isDecimalDigit c = true → c.toNat < 128) →
      (∀ m, m <:+: blanks ++ s → ¬IsScientific m) →
      (numeralSize s = 0 → scalar? (blanks ++ s) = none) ∧
      (numeralSize s ≠ 0 → ∃ number rest x, s = number ++ rest ∧
        number.size = numeralSize s ∧
        value? number = some x ∧ scalar? (blanks ++ s) = some (x, rest) ∧
        readSize (blanks ++ s) rest = blanks.size + numeralSize s) := by
  refine ⟨fun s n => numeralSize_eq_iff,
    fun blanks s blank shown ascii nowhere => ?_⟩
  have front : scientific? (blanks ++ s) = none := by
    rw [scientific?, findScientific?_eq_none_iff.2 nowhere]
  have start := trimStart_append blank shown
  have read : Numeral.readWith? isDecimalDigit s = Numeral.read? s :=
    readWith?_isDecimalDigit fun c hc =>
      ascii c (List.mem_append_right blanks hc)
  rw [scalar?, front, Option.none_or, leadingNumeral?, start, read]
  constructor
  · intro size
    rw [numeralSize_eq_zero_iff.1 size]
  · intro size
    cases found : Numeral.read? s with
    | none => exact absurd (numeralSize_eq_zero_iff.2 found) size
    | some pair =>
      obtain ⟨n, rest⟩ := pair
      have join := Numeral.text_append_of_readWith? found
      have value := value?_text (Numeral.written_of_readWith? found)
      have taken : numeralSize s = n.text.size := by
        rw [numeralSize, found, Option.elim_some]
      refine ⟨n.text, rest, n.value, join.symm, taken.symm, value, ?_, ?_⟩
      · simp only [value, Option.map_some]
      · rw [readSize, taken, ← join, size_append, size_append]
        omega

/-- Behind an ideographic space and a blank, an exponent without digits is left
of the number. -/
theorem scalar?_eq_numeral_sample :
    numeralSize "-1.5e+ kN".toList = 4 ∧
    ∃ (number rest : Text) (x : Float), "-1.5e+ kN".toList = number ++ rest ∧
      number.size = 4 ∧
      value? number = some x ∧
      scalar? ("\u3000 ".toList ++ "-1.5e+ kN".toList) = some (x, rest) ∧
      readSize ("\u3000 ".toList ++ "-1.5e+ kN".toList) rest = 8 := by
  have size : numeralSize "-1.5e+ kN".toList = 4 := by decide
  have blanks : Text.size "\u3000 ".toList = 4 := by decide
  have nowhere := findScientific?_eq_none_iff.1
    (show findScientific? ("\u3000 ".toList ++ "-1.5e+ kN".toList) =
      none by decide)
  have read :=
    (scalar?_eq_numeral.2 "\u3000 ".toList "-1.5e+ kN".toList
      (by decide) (by decide)
      (List.all_iff_forall_prop.1 rfl) nowhere).2
  rw [size, blanks] at read
  exact ⟨size, read (by decide)⟩

end Worksheet

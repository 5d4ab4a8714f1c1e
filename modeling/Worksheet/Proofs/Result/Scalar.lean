import Mathlib.Data.List.Basic
import Worksheet.Proofs.Decimal.Notation
import Worksheet.Proofs.Source.Slot
import Worksheet.Proofs.Text.Trim
import Worksheet.Result.Extraction

/-!
# Scalars that were printed

A number that was printed plainly, or as a mantissa times a power of ten, is
read back as a scalar when blanks stand before it and blanks with a unit, or
nothing, after it. A mantissa times a power of ten is looked for in the whole
text, so that the unit must not go on like one.
-/

namespace Worksheet

open Text Decimal

/-! ## Digits of every script -/

theorem isDecimalDigit_of_isDigit {c : Char} (h : c.isDigit = true) :
    isDecimalDigit c = true :=
  eq_of_isDigit (by decide) h

theorem not_isDecimalDigit_of_isBlank {c : Char} (h : isBlank c = true) :
    isDecimalDigit c = false :=
  eq_of_isBlank (by decide +kernel) h

theorem marksApart_isDecimalDigit : MarksApart isDecimalDigit := by
  intro c hc
  exact eq_of_mem_marks (by decide) hc

/-- A numeral stays written when more characters count as digits. -/
theorem Decimal.Numeral.Written.mono {d d' : Char → Bool}
    (h : ∀ c, d c = true → d' c = true) {n : Numeral} (hn : n.Written d) :
    n.Written d' := by
  refine ⟨hn.sign, hn.whole_ne, fun c hc => h c (hn.whole c hc),
    fun c hc => h c (hn.fraction c hc), ?_⟩
  intro p hp
  have power := hn.power p hp
  exact ⟨power.mark, power.sign, power.digits_ne,
    fun c hc => h c (power.digits c hc)⟩

theorem signedDigits?_append {sign ds u : Text}
    (hs : sign = [] ∨ sign = ['+'] ∨ sign = ['-']) (ne : ds ≠ [])
    (digits : ∀ c ∈ ds, isDecimalDigit c = true)
    (stop : u.head?.any isDecimalDigit = false) :
    signedDigits? (sign ++ (ds ++ u)) = some (sign ++ ds, u) := by
  obtain ⟨c, ds, rfl⟩ := List.exists_cons_of_ne_nil ne
  have split := takeSign_append marksApart_isDecimalDigit hs
    (digits c List.mem_cons_self) (ds ++ u)
  have run := takeDigits_append digits u
  rw [takeDigits_of_head stop, List.append_nil] at run
  rw [signedDigits?, List.cons_append, split]
  simp only [← List.cons_append, run]

/-- A mantissa is read whole in front of a text that does not go on with it. -/
theorem mantissa?_append {n : Numeral} (hn : n.Written isDecimalDigit)
    {u : Text} (stop : u.head?.any isDecimalDigit = false)
    (point : u.head? ≠ some '.') :
    mantissa? (n.sign ++ (n.whole ++ (fractionText n.fraction ++ u))) =
      some (n.sign ++ n.whole ++ fractionText n.fraction, u) := by
  by_cases hf : n.fraction = []
  · simp only [hf, fractionText, List.isEmpty_nil, if_true, List.nil_append,
      mantissa?, signedDigits?_append hn.sign hn.whole_ne hn.whole stop,
      takeFraction_of_ne point]
  · have fraction : fractionText n.fraction = '.' :: n.fraction := by
      simp [fractionText, hf]
    have dot : isDecimalDigit '.' = false := by decide
    have run := takeFraction_digits hf hn.fraction u
    rw [takeDigits_of_head stop, List.append_nil] at run
    have front :
        signedDigits? (n.sign ++ (n.whole ++ '.' :: (n.fraction ++ u))) =
        some (n.sign ++ n.whole, '.' :: (n.fraction ++ u)) :=
      signedDigits?_append hn.sign hn.whole_ne hn.whole dot
    simp only [fraction, List.cons_append, mantissa?, front, run]

theorem signedDigits?_join {s ds rest : Text}
    (h : signedDigits? s = some (ds, rest)) :
    ds ++ rest = s := by
  have sign := takeSign_join s
  have digits := takeDigits_join isDecimalDigit (takeSign s).2
  unfold signedDigits? at h
  split at h
  next sign' s' hsign =>
  rw [hsign] at sign digits
  split at h
  · cases h
  · next ds' rest' _ hdigits =>
    rw [hdigits] at digits
    cases h
    rw [List.append_assoc, digits, sign]

theorem mantissa?_join {s m rest : Text} (h : mantissa? s = some (m, rest)) :
    m ++ rest = s := by
  unfold mantissa? at h
  split at h
  · next whole rest' hwhole =>
    have join := signedDigits?_join hwhole
    have fraction := takeFraction_join isDecimalDigit rest'
    simp only [Option.some.injEq, Prod.mk.injEq] at h
    obtain ⟨rfl, rfl⟩ := h
    rw [List.append_assoc, fraction, join]
  · cases h

/-! ## Powers of ten -/

/-- A power of ten has a sign of multiplication and, after blanks, the text
`10`. -/
def HoldsTenfold (s : Text) : Prop :=
  ∃ front times gap back, s = front ++ times :: (gap ++ '1' :: '0' :: back) ∧
    isTimes times = true ∧ isAllBlank gap = true

theorem HoldsTenfold.append {s : Text} (h : HoldsTenfold s) (front : Text) :
    HoldsTenfold (front ++ s) := by
  obtain ⟨front', times, gap, back, rfl, htimes, blank⟩ := h
  exact ⟨front ++ front', times, gap, back, by simp, htimes, blank⟩

theorem tenPower?_holds {s : Text} {found : Text × Text}
    (h : tenPower? s = some found) :
    ∃ gap back, s = gap ++ '1' :: '0' :: back ∧ isAllBlank gap = true := by
  have parts := leading_append_trimStart s
  unfold tenPower? at h
  split at h
  · next back hstart =>
    rw [hstart] at parts
    exact ⟨leading s, back, parts.symm, isAllBlank_leading s⟩
  · cases h

theorem scientificAt?_holds {s : Text} {found : Text × Text × Text}
    (h : scientificAt? s = some found) : HoldsTenfold s := by
  unfold scientificAt? at h
  split at h
  · next mantissa rest hmantissa =>
    have join := mantissa?_join hmantissa
    have parts := leading_append_trimStart rest
    split at h
    · next times rest' hstart =>
      split at h
      · next htimes =>
        obtain ⟨power, hpower, -⟩ := Option.map_eq_some_iff.1 h
        obtain ⟨gap, back, rfl, blank⟩ := tenPower?_holds hpower
        rw [hstart] at parts
        have whole :
            s = mantissa ++
              (leading rest ++ times :: (gap ++ '1' :: '0' :: back)) := by
          rw [parts, join]
        exact ⟨mantissa ++ leading rest, times, gap, back, by simpa using whole,
          htimes, blank⟩
      · cases h
    · cases h
  · cases h

/-- Where a power of ten is found there is one. -/
theorem findScientific?_holds {s : Text} {found : Text × Text × Text}
    (h : findScientific? s = some found) : HoldsTenfold s := by
  induction s with
  | nil => cases h
  | cons c s ih =>
    rw [findScientific?] at h
    split at h
    · next hfound => exact scientificAt?_holds hfound
    · exact (ih h).append [c]

theorem scientificAt?_blank {c : Char} (h : isBlank c = true) (s : Text) :
    scientificAt? (c :: s) = none := by
  have digit := not_isDecimalDigit_of_isBlank h
  have sign : takeSign (c :: s) = ([], c :: s) := by
    rw [takeSign.eq_def]
    split
    · next heq =>
      obtain ⟨rfl, -⟩ := List.cons.inj heq
      exact absurd h (by decide)
    · next heq =>
      obtain ⟨rfl, -⟩ := List.cons.inj heq
      exact absurd h (by decide)
    · rfl
  have unsigned : signedDigits? (c :: s) = none := by
    simp only [signedDigits?, sign, takeDigits_cons_of_not digit]
  simp only [scientificAt?, mantissa?, unsigned]

theorem findScientific?_gap {gap : Text} (blank : isAllBlank gap = true)
    (s : Text) :
    findScientific? (gap ++ s) = findScientific? s := by
  induction gap with
  | nil => rfl
  | cons c gap ih =>
    rw [isAllBlank, List.all_cons, Bool.and_eq_true] at blank
    rw [List.cons_append, findScientific?, scientificAt?_blank blank.1,
      ih blank.2]

/-! ## Numbers in print -/

/-- The numeral with its power spelled out as a multiplication. -/
def Decimal.Numeral.spelled (n : Numeral) : Text :=
  n.sign ++ (n.whole ++ (fractionText n.fraction ++
    n.power.elim [] fun p => '×' :: '1' :: '0' :: '^' :: (p.sign ++ p.digits)))

/-- How a number is printed: plainly when it is finite, or as a mantissa times a
power of ten. The number in print is then the one that is written with an
`e`. -/
inductive Prints : Text → Float → Prop
  | plain {x : Float} (finite : x.isFinite = true) : Prints (plain x) x
  | spelled {n : Numeral} {sign digits : Text} {x : Float}
    (written : n.Written Char.isDigit)
    (power : n.power = some ⟨'e', sign, digits⟩)
    (value : value? n.text = some x) :
    Prints n.spelled x

/-- A number stops in front of nothing and in front of a blank. -/
theorem stops_of_head {rest : Text}
    (h : rest = [] ∨ ∃ c s, rest = c :: s ∧ isBlank c = true) :
    rest.head?.any isDecimalDigit = false ∧ rest.head? ≠ some '.' ∧
      ¬StartsPower isDecimalDigit rest := by
  rcases h with rfl | ⟨c, s, rfl, blank⟩
  · refine ⟨rfl, by simp, ?_⟩
    rintro ⟨mark, sign, digit, back, eq, -⟩
    cases eq
  · refine ⟨not_isDecimalDigit_of_isBlank blank, ?_, ?_⟩
    · rintro ⟨rfl⟩
      exact absurd blank (by decide)
    · rintro ⟨mark, sign, digit, back, eq, hmark, -⟩
      obtain ⟨rfl, -⟩ := List.cons.inj eq
      rcases hmark with rfl | rfl <;> exact absurd blank (by decide)

/-- Nothing in front of a unit makes a power of ten of it but a sign of
multiplication, so that there is none when no such sign stands before `10`
inside the unit. -/
theorem not_holdsTenfold_of_gap {front gap unit : Text}
    (apart : ∀ c ∈ front, isTimes c = false) (blank : isAllBlank gap = true)
    (shown : ∀ c ∈ unit, isBlank c = false)
    (untenfold : ∀ times, isTimes times = true → ¬[times, '1', '0'] <:+: unit) :
    ¬HoldsTenfold (front ++ (gap ++ unit)) := by
  rintro ⟨lead, times, gap', back, eq, htimes, blank'⟩
  have apart' : ∀ c ∈ front ++ gap, isTimes c = false := by
    intro c hc
    rcases List.mem_append.1 hc with hc | hc
    · exact apart c hc
    · exact eq_of_isBlank (by decide) (isBlank_of_mem blank c hc)
  have far : times ∉ front ++ gap := by
    intro mem
    rw [apart' times mem] at htimes
    cases htimes
  -- So the sign of multiplication stands in the unit, and the text `10` after
  -- it.
  have inside (mid : Text) (hunit : unit =
      mid ++ times :: (gap' ++ '1' :: '0' :: back)) : False := by
    cases gap' with
    | nil => exact untenfold times htimes ⟨mid, back, by simp [hunit]⟩
    | cons c gap' =>
      have blanks := isBlank_of_mem blank' c List.mem_cons_self
      rw [shown c (by simp [hunit])] at blanks
      cases blanks
  rw [← List.append_assoc] at eq
  rcases List.append_eq_append_iff.1 eq with
    ⟨mid, rfl, hunit⟩ | ⟨mid, hfront, hmid⟩
  · exact inside mid hunit
  · cases mid with
    | nil => exact inside [] hmid.symm
    | cons c mid =>
      obtain ⟨rfl, -⟩ := List.cons.inj hmid
      exact far (by simp [hfront])

/-- What stands behind a number: nothing, or blanks and a unit that does not
hold the text `10`. -/
inductive Behind : (rest unit : Text) → Prop
  | nothing : Behind [] []
  | unit {gap unit : Text} (ne : gap ≠ []) (blank : isAllBlank gap = true)
    (token : Vocabulary.builtIn.UnitToken unit)
    (untenfold : ¬['1', '0'] <:+: unit) :
    Behind (gap ++ unit) unit

namespace Behind

variable {rest unit : Text}

theorem head (h : Behind rest unit) :
    rest = [] ∨ ∃ c s, rest = c :: s ∧ isBlank c = true := by
  cases h with
  | nothing => exact .inl rfl
  | unit ne blank _ _ =>
    obtain ⟨c, gap, rfl⟩ := List.exists_cons_of_ne_nil ne
    exact .inr ⟨c, gap ++ unit, rfl, isBlank_of_mem blank c List.mem_cons_self⟩

theorem stops (h : Behind rest unit) :
    rest.head?.any isDecimalDigit = false ∧ rest.head? ≠ some '.' ∧
      ¬StartsPower isDecimalDigit rest :=
  stops_of_head h.head

theorem trimmed (h : Behind rest unit) : Trimmed unit := by
  cases h with
  | nothing => exact ⟨rfl, rfl⟩
  | unit _ _ token _ => exact token.trimmed

theorem trimStart_eq (h : Behind rest unit) : trimStart rest = unit := by
  have head := h.trimmed.head
  cases h with
  | nothing => rfl
  | unit _ blank _ _ => exact trimStart_append blank head

theorem head_ne_parenthesis (h : Behind rest unit) : unit.head? ≠ some ')' := by
  cases h with
  | nothing => simp
  | unit _ _ token _ =>
    intro parenthesis
    have first := token.first
    rw [parenthesis] at first
    exact absurd first (by decide)

theorem not_holdsTenfold (h : Behind rest unit) {front : Text}
    (apart : ∀ c ∈ front, isTimes c = false) :
    ¬HoldsTenfold (front ++ rest) := by
  cases h with
  | nothing =>
    exact @not_holdsTenfold_of_gap front [] [] apart rfl (by simp) (by simp)
  | unit _ blank token untenfold =>
    refine not_holdsTenfold_of_gap apart blank token.not_isBlank
      fun times _ inside => untenfold ?_
    exact List.IsInfix.trans (List.suffix_cons times ['1', '0']).isInfix inside

end Behind

theorem dropOptional_of_head {c : Char} {s : Text} (h : s.head? ≠ some c) :
    dropOptional c s = s := by
  cases s with
  | nil => rfl
  | cons d s => exact if_neg fun eq => h (by rw [eq]; rfl)

/-- An exponent begins with a sign or a digit, so neither with a blank nor with
a parenthesis. -/
theorem exists_head_exponent {p : Power} (hp : p.Written isDecimalDigit)
    (rest : Text) :
    ∃ c s, p.sign ++ (p.digits ++ rest) = c :: s ∧ isBlank c = false ∧
      c ≠ '(' := by
  obtain ⟨d, ds, hds⟩ := List.exists_cons_of_ne_nil hp.digits_ne
  have digit : isDecimalDigit d = true := hp.digits d (hds ▸ List.mem_cons_self)
  rcases hp.sign with hs | hs | hs
  · refine ⟨d, ds ++ rest, by rw [hs, hds]; rfl, ?_, ?_⟩
    · rw [← Bool.not_eq_true]
      intro blank
      rw [not_isDecimalDigit_of_isBlank blank] at digit
      cases digit
    · rintro rfl
      exact absurd digit (by decide)
  · exact ⟨'+', p.digits ++ rest, by rw [hs]; rfl, by decide, by decide⟩
  · exact ⟨'-', p.digits ++ rest, by rw [hs]; rfl, by decide, by decide⟩

/-- A power of ten in front of a unit is read, and the unit is left. -/
theorem tenPower?_append {p : Power} (hp : p.Written isDecimalDigit)
    {rest unit : Text} (behind : Behind rest unit) :
    tenPower? ('1' :: '0' :: '^' :: (p.sign ++ (p.digits ++ rest))) =
      some (p.sign ++ p.digits, unit) := by
  have exponent :=
    signedDigits?_append hp.sign hp.digits_ne hp.digits behind.stops.1
  obtain ⟨c, s, hcs, nonblank, paren⟩ := exists_head_exponent hp rest
  have start : trimStart (c :: s) = c :: s := by simp [trimStart, nonblank]
  have opening : dropOptional '(' (c :: s) = c :: s :=
    dropOptional_of_head fun eq => paren (Option.some.inj eq)
  have one : trimStart ('1' :: '0' :: '^' :: (c :: s)) =
      '1' :: '0' :: '^' :: (c :: s) := rfl
  have power : trimStart ('^' :: (c :: s)) = '^' :: (c :: s) := rfl
  rw [hcs] at exponent ⊢
  rw [tenPower?, one]
  simp only [power, start, opening, exponent, Option.map_some,
    behind.trimStart_eq, dropOptional_of_head behind.head_ne_parenthesis]

theorem scientificAt?_spelled {n : Numeral} {p : Power}
    (written : n.Written isDecimalDigit) (power : n.power = some p)
    {rest unit : Text} (behind : Behind rest unit) :
    scientificAt? (n.spelled ++ rest) =
      some (n.sign ++ n.whole ++ fractionText n.fraction, p.sign ++ p.digits,
        unit) := by
  have text :
      n.spelled ++ rest = n.sign ++ (n.whole ++ (fractionText n.fraction ++
      '×' :: '1' :: '0' :: '^' :: (p.sign ++ (p.digits ++ rest)))) := by
    simp [Numeral.spelled, power]
  have times : isDecimalDigit '×' = false := by decide
  have mantissa := mantissa?_append written
    (u := '×' :: '1' :: '0' :: '^' :: (p.sign ++ (p.digits ++ rest))) times
    (by simp)
  have start :
      trimStart ('×' :: '1' :: '0' :: '^' :: (p.sign ++ (p.digits ++ rest))) =
      '×' :: '1' :: '0' :: '^' :: (p.sign ++ (p.digits ++ rest)) := rfl
  have sign : isTimes '×' = true := rfl
  simp only [text, scientificAt?, mantissa, start, sign, if_true,
    tenPower?_append (written.power p power) behind, Option.map_some]

/-- A plain number is no scientific one when nothing after it makes a power of
ten, and is read up to what is behind it. -/
theorem scalar?_plain_of_stops {gap rest : Text} {x : Float}
    (finite : x.isFinite = true) (blank : isAllBlank gap = true)
    (stops : rest.head?.any isDecimalDigit = false ∧ rest.head? ≠ some '.' ∧
      ¬StartsPower isDecimalDigit rest)
    (untenfold : ∀ {front : Text}, (∀ c ∈ front, isTimes c = false) →
      ¬HoldsTenfold (front ++ rest)) :
    scalar? (gap ++ (plain x ++ rest)) = some (x, rest) := by
  obtain ⟨digit, point, power⟩ := stops
  obtain ⟨n, written, noPower, htext, hvalue⟩ := exists_plain finite
  have mild := Mild.of_written written
  have apart : ∀ c ∈ gap ++ n.text, isTimes c = false := by
    intro c hc
    rcases List.mem_append.1 hc with hc | hc
    · exact eq_of_isBlank (by decide) (isBlank_of_mem blank c hc)
    rcases written.mem_text hc with digit | mark
    · exact eq_of_isDigit (by decide) digit
    · exact eq_of_mem_marks (by decide) mark
  have none : scientific? (gap ++ (n.text ++ rest)) = none := by
    cases h : findScientific? (gap ++ (n.text ++ rest)) with
    | none => simp only [scientific?, h]
    | some found =>
      have holds := findScientific?_holds h
      rw [← List.append_assoc] at holds
      exact absurd holds (untenfold apart)
  have start := trimStart_append blank (mild.trimmed.head_append mild.ne rest)
  have read := (Numeral.readWith?_text_append_iff marksApart_isDecimalDigit
    (written.mono fun c => isDecimalDigit_of_isDigit) noPower digit point).2 power
  rw [← htext, scalar?, none, Option.none_or, leadingNumeral?, start, read]
  simp only [value?_text written, hvalue, Option.map_some]

/-- A plain number in front of a unit is no scientific one, and is read up to
what is behind it. -/
theorem scalar?_plain {gap rest unit : Text} {x : Float}
    (finite : x.isFinite = true) (blank : isAllBlank gap = true)
    (behind : Behind rest unit) :
    scalar? (gap ++ (plain x ++ rest)) = some (x, rest) :=
  scalar?_plain_of_stops finite blank behind.stops behind.not_holdsTenfold

/-- A number with a power of ten in front of a unit is found as it is
spelled. -/
theorem scalar?_spelled {n : Numeral} {p : Power} {gap rest unit : Text}
    {x : Float} (written : n.Written Char.isDigit) (power : n.power = some p)
    (mark : p.mark = 'e') (value : value? n.text = some x)
    (blank : isAllBlank gap = true) (behind : Behind rest unit) :
    scalar? (gap ++ (n.spelled ++ rest)) = some (x, unit) := by
  have found := scientificAt?_spelled
    (written.mono fun c => isDecimalDigit_of_isDigit) power behind
  have first : findScientific? (n.spelled ++ rest) =
      some (n.sign ++ n.whole ++ fractionText n.fraction, p.sign ++ p.digits,
        unit) := by
    cases h : n.spelled ++ rest with
    | nil =>
      rw [h] at found
      cases found
    | cons c s => rw [findScientific?, ← h, found]
  have text :
      n.sign ++ n.whole ++ fractionText n.fraction ++
        'e' :: (p.sign ++ p.digits) =
      n.text := by
    simp [Numeral.text, power, powerText, Power.text, mark]
  rw [scalar?, scientific?, findScientific?_gap blank, first]
  simp only [text, value, Option.map_some, Option.some_or]

/-- What was printed in front of a unit is read back, and the unit is left. -/
theorem scalar?_prints {number gap rest unit : Text} {x : Float}
    (prints : Prints number x) (blank : isAllBlank gap = true)
    (behind : Behind rest unit) :
    ∃ left, scalar? (gap ++ (number ++ rest)) = some (x, left) ∧
      trimStart left = unit := by
  cases prints with
  | plain finite =>
    exact ⟨rest, scalar?_plain finite blank behind, behind.trimStart_eq⟩
  | spelled written power value =>
    have trimmed := trimStart_append (p := []) rfl behind.trimmed.head
    exact ⟨unit, scalar?_spelled written power rfl value blank behind, trimmed⟩

end Worksheet

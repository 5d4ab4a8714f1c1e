import Mathlib.Tactic.Common
import Worksheet.Decimal.Numeral

/-!
# Grammar of numerals

A written numeral has a sign or none, digits, and in its fraction and power
nothing but digits after their marks. Reading gives written numerals only, and
it takes the longest one: a numeral in front of any text is read whole, with
whatever goes on it in the text.
-/

namespace Worksheet.Decimal

/-- The exponent part is made of a mark, a sign or none, and digits. -/
structure Power.Written (d : Char → Bool) (p : Power) : Prop where
  mark : p.mark = 'e' ∨ p.mark = 'E'
  sign : p.sign = [] ∨ p.sign = ['+'] ∨ p.sign = ['-']
  digits_ne : p.digits ≠ []
  digits : ∀ c ∈ p.digits, d c = true

/-- The numeral is made of a sign or none, digits, and written parts. -/
structure Numeral.Written (d : Char → Bool) (n : Numeral) : Prop where
  sign : n.sign = [] ∨ n.sign = ['+'] ∨ n.sign = ['-']
  whole_ne : n.whole ≠ []
  whole : ∀ c ∈ n.whole, d c = true
  fraction : ∀ c ∈ n.fraction, d c = true
  power : ∀ p, n.power = some p → p.Written d

/-- The marks and signs of numerals. -/
def marks : List Char := ['+', '-', '.', 'e', 'E']

/-- A property of the marks and signs can be checked one by one. -/
theorem eq_of_mem_marks {f : Char → Bool} {b : Bool}
    (h : marks.all (f · == b) = true) {c : Char} (hc : c ∈ marks) : f c = b :=
  beq_iff_eq.1 (List.all_eq_true.1 h c hc)

/-- The marks and signs of numerals are no digits. -/
def MarksApart (d : Char → Bool) : Prop := ∀ c ∈ marks, d c = false

theorem marksApart_isDigit : MarksApart Char.isDigit := by
  intro c hc
  exact eq_of_mem_marks (by decide) hc

/-! ## The parts -/

section
variable {d : Char → Bool}

theorem takeSign_cases (s : Text) :
    (takeSign s).1 = [] ∨ (takeSign s).1 = ['+'] ∨ (takeSign s).1 = ['-'] := by
  rw [takeSign.eq_def]
  split
  · exact Or.inr (Or.inl rfl)
  · exact Or.inr (Or.inr rfl)
  · exact Or.inl rfl

theorem takeSign_digit (hd : MarksApart d) {c : Char} (hc : d c = true)
    (s : Text) :
    takeSign (c :: s) = ([], c :: s) := by
  rw [takeSign.eq_def]
  split
  · next h =>
    simp only [List.cons.injEq] at h
    rw [h.1, hd '+' (by decide)] at hc
    exact absurd hc (by decide)
  · next h =>
    simp only [List.cons.injEq] at h
    rw [h.1, hd '-' (by decide)] at hc
    exact absurd hc (by decide)
  · rfl

theorem takeSign_append (hd : MarksApart d) {sign : Text}
    (h : sign = [] ∨ sign = ['+'] ∨ sign = ['-']) {c : Char} (hc : d c = true)
    (s : Text) :
    takeSign (sign ++ c :: s) = (sign, c :: s) := by
  rcases h with rfl | rfl | rfl
  · exact takeSign_digit hd hc s
  · rfl
  · rfl

theorem takeDigits_append {ds : Text} (h : ∀ c ∈ ds, d c = true) (s : Text) :
    takeDigits d (ds ++ s) =
      (ds ++ (takeDigits d s).1, (takeDigits d s).2) := by
  simp only [takeDigits, List.takeWhile_append_of_pos h,
    List.dropWhile_append_of_pos h]

theorem takeDigits_cons_of_not {c : Char} (h : d c = false) (s : Text) :
    takeDigits d (c :: s) = ([], c :: s) := by
  simp [takeDigits, h]

theorem mem_takeDigits {s : Text} : ∀ c ∈ (takeDigits d s).1, d c = true := by
  exact List.all_eq_true.1 List.all_takeWhile

theorem takeFraction_digits {ds : Text} (hne : ds ≠ [])
    (h : ∀ c ∈ ds, d c = true) (s : Text) :
    takeFraction d ('.' :: (ds ++ s)) =
      (ds ++ (takeDigits d s).1, (takeDigits d s).2) := by
  rw [takeFraction, takeDigits_append h]
  split
  · next heq =>
    simp only [Prod.mk.injEq, List.append_eq_nil_iff] at heq
    exact absurd heq.1.1 hne
  · next heq => rw [← heq]

theorem takeFraction_of_ne {s : Text} (h : s.head? ≠ some '.') :
    takeFraction d s = ([], s) := by
  rw [takeFraction.eq_def]
  split
  · simp at h
  · rfl

theorem mem_takeFraction {s : Text} :
    ∀ c ∈ (takeFraction d s).1, d c = true := by
  rw [takeFraction.eq_def]
  split
  · next s =>
    have h := mem_takeDigits (d := d) (s := s)
    split
    · simp
    · next heq =>
      rw [heq] at h
      exact h
  · simp

theorem takePower_written (hd : MarksApart d) {p : Power} (hp : p.Written d)
    (s : Text) :
    takePower d (p.text ++ s) =
      (some { p with digits := p.digits ++ (takeDigits d s).1 },
       (takeDigits d s).2) := by
  obtain ⟨mark, sign, digits⟩ := p
  obtain ⟨hm, hs, hne, hds⟩ := hp
  obtain ⟨c, ds, rfl⟩ := List.exists_cons_of_ne_nil hne
  have hsign : takeSign (sign ++ (c :: ds) ++ s) = (sign, c :: ds ++ s) := by
    rw [List.append_assoc]
    exact takeSign_append hd hs (hds c List.mem_cons_self) (ds ++ s)
  rw [Power.text, List.cons_append, takePower, if_pos hm]
  simp only [hsign, takeDigits_append hds]
  rfl

theorem written_of_takePower {s rest : Text} {p : Power}
    (h : takePower d s = (some p, rest)) :
    p.Written d := by
  rw [takePower.eq_def] at h
  split at h
  · simp at h
  · next c after =>
    split at h
    · next hm =>
      have hs := takeSign_cases after
      split at h
      next sign rest' heq =>
      rw [heq] at hs
      have hds := mem_takeDigits (d := d) (s := rest')
      split at h
      · simp at h
      · next ds rest'' hne heq' =>
        rw [heq'] at hds
        simp only [Prod.mk.injEq, Option.some.injEq] at h
        obtain ⟨rfl, -⟩ := h
        exact ⟨hm, hs, hne, hds⟩
    · simp at h

/-! ## Reading -/

/-- Reading, part by part. -/
theorem Numeral.readWith?_of_parts {s sign s₁ whole s₂ fraction s₃ s₄ : Text}
    {power : Option Power} (h₁ : takeSign s = (sign, s₁))
    (h₂ : takeDigits d s₁ = (whole, s₂)) (hne : whole ≠ [])
    (h₃ : takeFraction d s₂ = (fraction, s₃))
    (h₄ : takePower d s₃ = (power, s₄)) :
    readWith? d s = some (⟨sign, whole, fraction, power⟩, s₄) := by
  unfold readWith?
  rw [h₁]
  simp only
  rw [h₂]
  split
  · next heq =>
    simp only [Prod.mk.injEq] at heq
    exact absurd heq.1 hne
  · next heq =>
    simp only [Prod.mk.injEq] at heq
    obtain ⟨rfl, rfl⟩ := heq
    rw [h₃]
    simp only
    rw [h₄]

theorem Numeral.parts_of_readWith? {s s₄ : Text} {n : Numeral}
    (h : readWith? d s = some (n, s₄)) :
    ∃ s₁ s₂ s₃, takeSign s = (n.sign, s₁) ∧ takeDigits d s₁ = (n.whole, s₂) ∧
      n.whole ≠ [] ∧
      takeFraction d s₂ = (n.fraction, s₃) ∧
      takePower d s₃ = (n.power, s₄) := by
  unfold readWith? at h
  simp only at h
  split at h
  · simp at h
  · next whole s₂ hne hwhole =>
    simp only [Option.some.injEq, Prod.mk.injEq] at h
    obtain ⟨rfl, rfl⟩ := h
    exact ⟨(takeSign s).2, s₂, (takeFraction d s₂).2, rfl, hwhole, hne, rfl,
      rfl⟩

/-- What is read is a written numeral. -/
theorem Numeral.written_of_readWith? {s rest : Text} {n : Numeral}
    (h : readWith? d s = some (n, rest)) : n.Written d := by
  obtain ⟨s₁, s₂, s₃, hsign, hwhole, hne, hfraction, hpower⟩ :=
    parts_of_readWith? h
  refine ⟨?_, hne, ?_, ?_, ?_⟩
  · have := takeSign_cases s
    rwa [hsign] at this
  · have := mem_takeDigits (d := d) (s := s₁)
    rwa [hwhole] at this
  · have := mem_takeFraction (d := d) (s := s₂)
    rwa [hfraction] at this
  · intro p hp
    rw [hp] at hpower
    exact written_of_takePower hpower

/-- The text of a numeral, from its first digit on. -/
theorem Numeral.text_eq {n : Numeral} (hne : n.whole ≠ []) (u : Text) :
    ∃ c ds, n.whole = c :: ds ∧ n.text ++ u =
      n.sign ++ c ::
        (ds ++ (fractionText n.fraction ++ (powerText n.power ++ u))) := by
  obtain ⟨c, ds, hw⟩ := List.exists_cons_of_ne_nil hne
  exact ⟨c, ds, hw, by simp [Numeral.text, hw]⟩

/-- Reading a written numeral in front of a text takes its sign and goes on with
its digits. -/
theorem Numeral.Written.takeSign_text (hd : MarksApart d) {n : Numeral}
    (hn : n.Written d) (u : Text) : takeSign (n.text ++ u) =
      (n.sign,
        n.whole ++ (fractionText n.fraction ++ (powerText n.power ++ u))) := by
  obtain ⟨c, ds, hw, ht⟩ := text_eq hn.whole_ne u
  rw [ht, hw, List.cons_append]
  exact takeSign_append hd hn.sign (hn.whole c (hw ▸ List.mem_cons_self)) _

/-- A numeral with a power is read up to its last digit, and takes the digits
that follow. -/
theorem Numeral.readWith?_power (hd : MarksApart d) {n : Numeral}
    (hn : n.Written d) {p : Power} (hp : n.power = some p) (u : Text) :
    readWith? d (n.text ++ u) =
      some ({ n with
          power := some { p with digits := p.digits ++ (takeDigits d u).1 } },
        (takeDigits d u).2) := by
  have hpw := hn.power p hp
  -- The mark stops the digits before it and opens no fraction.
  have hmark : d p.mark = false := by
    rcases hpw.mark with h | h <;> rw [h] <;> exact hd _ (by decide)
  have hdot : p.mark ≠ '.' := by
    rcases hpw.mark with h | h <;> rw [h] <;> decide
  have hstop : takeDigits d (p.text ++ u) = ([], p.text ++ u) :=
    takeDigits_cons_of_not hmark _
  have hsign := hn.takeSign_text hd u
  rw [hp] at hsign
  by_cases hf : n.fraction = []
  · rw [hf] at hsign
    have hw := takeDigits_append hn.whole (p.text ++ u)
    rw [hstop, List.append_nil] at hw
    have hfr : takeFraction d (p.text ++ u) = ([], p.text ++ u) :=
      takeFraction_of_ne (by simpa [Power.text] using hdot)
    rw [readWith?_of_parts hsign hw hn.whole_ne hfr
      (takePower_written hd hpw u), hf]
  · have hfrac : fractionText n.fraction = '.' :: n.fraction := by
      simp [fractionText, hf]
    rw [hfrac, List.cons_append] at hsign
    have hw := takeDigits_append hn.whole ('.' :: (n.fraction ++ (p.text ++ u)))
    rw [takeDigits_cons_of_not (hd '.' (by decide)), List.append_nil] at hw
    have hfr := takeFraction_digits hf hn.fraction (p.text ++ u)
    rw [hstop, List.append_nil] at hfr
    rw [readWith?_of_parts hsign hw hn.whole_ne hfr
      (takePower_written hd hpw u)]

/-- A numeral that ends with its fraction takes the digits that follow, and a
power after them. -/
theorem Numeral.readWith?_fraction (hd : MarksApart d) {n : Numeral}
    (hn : n.Written d) (hp : n.power = none) (hf : n.fraction ≠ []) (u : Text) :
    readWith? d (n.text ++ u) =
      some ({ n with fraction := n.fraction ++ (takeDigits d u).1,
                     power := (takePower d (takeDigits d u).2).1 },
        (takePower d (takeDigits d u).2).2) := by
  have hsign := hn.takeSign_text hd u
  have hfrac : fractionText n.fraction = '.' :: n.fraction := by
    simp [fractionText, hf]
  rw [hp, hfrac, List.cons_append] at hsign
  have hw := takeDigits_append hn.whole ('.' :: (n.fraction ++ u))
  rw [takeDigits_cons_of_not (hd '.' (by decide)), List.append_nil] at hw
  exact readWith?_of_parts hsign hw hn.whole_ne
    (takeFraction_digits hf hn.fraction u) rfl

/-- A numeral that ends with its whole part takes the digits that follow, a
fraction after them, and a power after that. -/
theorem Numeral.readWith?_whole (hd : MarksApart d) {n : Numeral}
    (hn : n.Written d) (hp : n.power = none) (hf : n.fraction = []) (u : Text) :
    readWith? d (n.text ++ u) =
      some (⟨n.sign, n.whole ++ (takeDigits d u).1,
          (takeFraction d (takeDigits d u).2).1,
          (takePower d (takeFraction d (takeDigits d u).2).2).1⟩,
        (takePower d (takeFraction d (takeDigits d u).2).2).2) := by
  have hsign := hn.takeSign_text hd u
  rw [hp, hf] at hsign
  have hw := takeDigits_append hn.whole u
  exact readWith?_of_parts hsign hw (by simp [hn.whole_ne]) rfl rfl

/-- Reading takes at least the numeral that stands in front, and what it takes
more is the front of what follows. -/
theorem Numeral.exists_readWith?_text_append (hd : MarksApart d) {n : Numeral}
    (hn : n.Written d) (u : Text) :
    ∃ m more rest, readWith? d (n.text ++ u) = some (m, rest) ∧
      m.text = n.text ++ more ∧ u = more ++ rest := by
  have hjoin := takeDigits_join d u
  cases hp : n.power with
  | some p =>
    refine ⟨_, (takeDigits d u).1, _, readWith?_power hd hn hp u, ?_,
      hjoin.symm⟩
    simp [Numeral.text, powerText, Power.text, hp]
  | none =>
    by_cases hf : n.fraction = []
    · have hjoin' := takeFraction_join d (takeDigits d u).2
      have hjoin'' := takePower_join d (takeFraction d (takeDigits d u).2).2
      refine ⟨_, (takeDigits d u).1 ++
        (fractionText (takeFraction d (takeDigits d u).2).1 ++
        powerText (takePower d (takeFraction d (takeDigits d u).2).2).1), _,
        readWith?_whole hd hn hp hf u, ?_, ?_⟩
      · simp [Numeral.text, hp, hf, fractionText, powerText]
      · rw [List.append_assoc, List.append_assoc, hjoin'', hjoin', hjoin]
    · have hjoin' := takePower_join d (takeDigits d u).2
      refine ⟨_, (takeDigits d u).1 ++
          powerText (takePower d (takeDigits d u).2).1, _,
        readWith?_fraction hd hn hp hf u, ?_, ?_⟩
      · simp [Numeral.text, hp, hf, fractionText, powerText]
      · rw [List.append_assoc, hjoin', hjoin]

/-- A written numeral is read back. -/
theorem Numeral.readWith?_text (hd : MarksApart d) {n : Numeral}
    (hn : n.Written d) :
    readWith? d n.text = some (n, []) := by
  obtain ⟨sign, whole, fraction, power⟩ := n
  rw [← List.append_nil (Numeral.text _)]
  cases power with
  | some p =>
    rw [readWith?_power hd hn rfl []]
    simp [takeDigits]
  | none =>
    by_cases hf : fraction = []
    · subst hf
      rw [readWith?_whole hd hn rfl rfl []]
      simp [takeDigits, takeFraction, takePower]
    · rw [readWith?_fraction hd hn rfl hf []]
      simp [takeDigits, takePower]

/-! ## Characters -/

theorem Numeral.Written.mem_text {n : Numeral} (hn : n.Written d) {c : Char}
    (hc : c ∈ n.text) :
    d c = true ∨ c ∈ marks := by
  have hsign {t : Text} (ht : t = [] ∨ t = ['+'] ∨ t = ['-']) (h : c ∈ t) :
      c ∈ marks := by
    rcases ht with rfl | rfl | rfl <;> simp_all [marks]
  simp only [Numeral.text, List.mem_append] at hc
  rcases hc with hc | hc | hc | hc
  · exact Or.inr (hsign hn.sign hc)
  · exact Or.inl (hn.whole c hc)
  · simp only [fractionText] at hc
    split at hc
    · simp at hc
    · rcases List.mem_cons.1 hc with rfl | hc
      · exact Or.inr (by decide)
      · exact Or.inl (hn.fraction c hc)
  · cases hp : n.power with
    | none => simp [hp, powerText] at hc
    | some p =>
      have hpw := hn.power p hp
      simp only [hp, powerText, Option.elim, Power.text, List.mem_cons,
        List.mem_append] at hc
      rcases hc with rfl | hc | hc
      · rcases hpw.mark with h | h <;> rw [h] <;> exact Or.inr (by decide)
      · exact Or.inr (hsign hpw.sign hc)
      · exact Or.inl (hpw.digits c hc)

/-- A numeral begins with a digit or a sign. -/
theorem Numeral.Written.head_text {n : Numeral} (hn : n.Written d) :
    ∃ c s, n.text = c :: s ∧ (d c = true ∨ c = '+' ∨ c = '-') := by
  obtain ⟨c, ds, hw, ht⟩ := text_eq hn.whole_ne []
  rw [List.append_nil] at ht
  rcases hn.sign with h | h | h
  · exact ⟨c, _, by rw [ht, h]; rfl,
      Or.inl (hn.whole c (hw ▸ List.mem_cons_self))⟩
  · exact ⟨'+', _, by rw [ht, h]; rfl, Or.inr (Or.inl rfl)⟩
  · exact ⟨'-', _, by rw [ht, h]; rfl, Or.inr (Or.inr rfl)⟩

/-! ## Numerals in front of a text -/

/-- A numeral is known by its text. -/
theorem Numeral.Written.eq_of_text_eq (hd : MarksApart d) {m n : Numeral}
    (hm : m.Written d) (hn : n.Written d) (h : m.text = n.text) : m = n := by
  have read := readWith?_text hd hm
  rw [h, readWith?_text hd hn, Option.some.injEq, Prod.mk.injEq] at read
  exact read.1.symm

/-- A written numeral in front of a text, no other one being longer. -/
structure Numeral.Leads (d : Char → Bool) (n : Numeral) (s : Text) : Prop where
  written : n.Written d
  front : n.text <+: s
  longest : ∀ m : Numeral, m.Written d → m.text <+: s →
    m.text.length ≤ n.text.length

/-- Reading takes the longest numeral in front of a text. -/
theorem Numeral.readWith?_eq_some_iff (hd : MarksApart d) {s rest : Text}
    {n : Numeral} :
    readWith? d s = some (n, rest) ↔ n.Leads d s ∧ s = n.text ++ rest := by
  constructor
  · intro read
    have join := text_append_of_readWith? read
    refine ⟨⟨written_of_readWith? read, ⟨rest, join⟩, ?_⟩, join.symm⟩
    rintro m written ⟨after, rfl⟩
    obtain ⟨n', more, rest', read', longer, -⟩ :=
      exists_readWith?_text_append hd written after
    rw [read, Option.some.injEq, Prod.mk.injEq] at read'
    rw [read'.1, longer, List.length_append]
    omega
  · rintro ⟨leads, rfl⟩
    obtain ⟨m, more, rest', read, longer, join⟩ :=
      exists_readWith?_text_append hd leads.written rest
    have bound := leads.longest m (written_of_readWith? read)
      ⟨rest', text_append_of_readWith? read⟩
    rw [longer, List.length_append] at bound
    obtain rfl : more = [] := List.length_eq_zero_iff.1 (by omega)
    rw [List.append_nil] at longer
    rw [read, (written_of_readWith? read).eq_of_text_eq hd leads.written longer,
      join, List.nil_append]

theorem takeDigits_of_head {u : Text} (h : u.head?.any d = false) :
    takeDigits d u = ([], u) := by
  cases u with
  | nil => rfl
  | cons c u => exact takeDigits_cons_of_not h u

/-- An exponent part at the front of a text: its mark, a sign or none, and a
digit. -/
def StartsPower (d : Char → Bool) (u : Text) : Prop :=
  ∃ mark sign digit rest, u = mark :: (sign ++ digit :: rest) ∧
    (mark = 'e' ∨ mark = 'E') ∧
    (sign = [] ∨ sign = ['+'] ∨ sign = ['-']) ∧ d digit = true

theorem takePower_eq_none_iff (hd : MarksApart d) {u : Text} :
    takePower d u = (none, u) ↔ ¬StartsPower d u := by
  constructor
  · rintro h ⟨mark, sign, digit, rest, rfl, hmark, hsign, hdigit⟩
    -- A power of one digit is already taken, whatever follows that digit.
    have written : Power.Written d ⟨mark, sign, [digit]⟩ :=
      ⟨hmark, hsign, by simp, by simpa using hdigit⟩
    have taken := takePower_written hd written rest
    rw [show Power.text ⟨mark, sign, [digit]⟩ ++ rest =
      mark :: (sign ++ digit :: rest) by
      simp [Power.text], h] at taken
    cases taken
  · intro h
    have join := takePower_join d u
    cases hp : takePower d u with
    | mk power rest =>
      rw [hp] at join
      cases power with
      | none =>
        have same : rest = u := join
        rw [same]
      | some p =>
        have written := written_of_takePower hp
        obtain ⟨digit, ds, hds⟩ := List.exists_cons_of_ne_nil written.digits_ne
        refine absurd ⟨p.mark, p.sign, digit, ds ++ rest, ?_, written.mark,
          written.sign, written.digits digit (hds ▸ List.mem_cons_self)⟩ h
        rw [← join, powerText, Option.elim, Power.text, hds]
        simp

/-- A numeral without a power, before a text that begins with neither a digit
nor a point, is read alone just when no power follows. -/
theorem Numeral.readWith?_text_append_iff (hd : MarksApart d) {n : Numeral}
    (hn : n.Written d) (hp : n.power = none) {u : Text}
    (digit : u.head?.any d = false) (point : u.head? ≠ some '.') :
    readWith? d (n.text ++ u) = some (n, u) ↔ ¬StartsPower d u := by
  rw [← takePower_eq_none_iff hd]
  obtain ⟨sign, whole, fraction, power⟩ := n
  cases hp
  by_cases hf : fraction = []
  · subst hf
    rw [readWith?_whole hd hn rfl rfl u, takeDigits_of_head digit,
      takeFraction_of_ne point]
    simp [Prod.ext_iff]
  · rw [readWith?_fraction hd hn rfl hf u, takeDigits_of_head digit]
    simp [Prod.ext_iff]

end

/-- The size of the numeral with ASCII digits at the front of a text, zero when
there is none. -/
def numeralSize (s : Text) : Nat :=
  (Numeral.read? s).elim 0 fun (n, _) => n.text.size

theorem eq_nil_of_size_eq_zero {s : Text} (h : s.size = 0) : s = [] := by
  cases s with
  | nil => rfl
  | cons c s =>
    have positive := c.utf8Size_pos
    rw [Text.size_cons] at h
    omega

/-- Only the numeral itself is read just when the numeral at the front has its
size. -/
theorem numeralSize_text_append_iff {n : Numeral} (hn : n.Written Char.isDigit)
    {u : Text} :
    numeralSize (n.text ++ u) = n.text.size ↔
      Numeral.read? (n.text ++ u) = some (n, u) := by
  constructor
  · intro h
    obtain ⟨m, more, rest, read, htext, rfl⟩ :=
      Numeral.exists_readWith?_text_append marksApart_isDigit hn u
    have size : m.text.size = n.text.size := by
      rw [numeralSize, Numeral.read?, read] at h
      exact h
    rw [htext, Text.size_append] at size
    have none : more = [] := eq_nil_of_size_eq_zero (by omega)
    rw [none, List.append_nil] at htext
    have written := Numeral.written_of_readWith? read
    have same := written.eq_of_text_eq marksApart_isDigit hn htext
    rw [Numeral.read?, read, same, none]
    rfl
  · intro h
    rw [numeralSize, h]
    rfl

end Worksheet.Decimal

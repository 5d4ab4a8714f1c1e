import Mathlib.Tactic.Ring
import Mathlib.Tactic.Linarith
import Worksheet.Proofs.Decimal.Word

/-!
# Rounding intervals

Around each magnitude lies the interval of rationals that round to it; its ends
belong to it when the mantissa is even. A rational of the interval is read as
the magnitude, however it is written, and the shortest decimal of a magnitude
lies in its interval: writing a magnitude and reading it give it back.
-/

namespace Worksheet.Decimal

/-- Whether `num / den` lies in the interval that rounds to the magnitude:
inside, or at an end of an even one. -/
def Binary.Covers (b : Binary) (num den : Nat) : Prop :=
  (b.lowerEnd * den < 4 * (num * unitsOfOne) ∧
    4 * (num * unitsOfOne) < b.upperEnd * den) ∨
    (b.mantissa % 2 = 0 ∧
      b.lowerEnd * den ≤ 4 * (num * unitsOfOne) ∧
      4 * (num * unitsOfOne) ≤ b.upperEnd * den)

section
variable {k p den p' den' : Nat}

theorem mul_lt_iff_of_cross (hd : 0 < den) (hd' : 0 < den')
    (h : p * den' = p' * den) :
    k * den < p ↔ k * den' < p' := by
  rw [← Nat.mul_lt_mul_right hd', h, Nat.mul_right_comm,
    Nat.mul_lt_mul_right hd]

theorem mul_le_iff_of_cross (hd : 0 < den) (hd' : 0 < den')
    (h : p * den' = p' * den) :
    k * den ≤ p ↔ k * den' ≤ p' := by
  rw [← Nat.mul_le_mul_right_iff hd', h, Nat.mul_right_comm,
    Nat.mul_le_mul_right_iff hd]

theorem lt_mul_iff_of_cross (hd : 0 < den) (hd' : 0 < den')
    (h : p * den' = p' * den) :
    p < k * den ↔ p' < k * den' := by
  rw [← Nat.not_le, mul_le_iff_of_cross hd hd' h, Nat.not_le]

theorem le_mul_iff_of_cross (hd : 0 < den) (hd' : 0 < den')
    (h : p * den' = p' * den) :
    p ≤ k * den ↔ p' ≤ k * den' := by
  rw [← Nat.not_lt, mul_lt_iff_of_cross hd hd' h, Nat.not_lt]
end

/-- Only the rational matters, not how it is written. -/
theorem Binary.Covers.of_eq {b : Binary} {num den num' den' : Nat}
    (h : b.Covers num den) (hd : 0 < den) (hd' : 0 < den')
    (he : num * den' = num' * den) : b.Covers num' den' := by
  have hs : 4 * (num * unitsOfOne) * den' = 4 * (num' * unitsOfOne) * den := by
    calc 4 * (num * unitsOfOne) * den'
      _ = 4 * unitsOfOne * (num * den') := by ring
      _ = 4 * unitsOfOne * (num' * den) := by rw [he]
      _ = 4 * (num' * unitsOfOne) * den := by ring
  unfold Binary.Covers at h ⊢
  rwa [mul_lt_iff_of_cross hd hd' hs, lt_mul_iff_of_cross hd hd' hs,
    mul_le_iff_of_cross hd hd' hs, le_mul_iff_of_cross hd hd' hs] at h

/-! ## Rounding inside an interval -/

/-- A quotient within one half of a number rounds to it, at a distance of one
half when the number is even. -/
theorem roundDiv_eq {num den m : Nat} (hd : 0 < den)
    (hlo : 2 * (m * den) ≤ 2 * num + den) (hhi : 2 * num ≤ 2 * (m * den) + den)
    (htie : m % 2 = 1 → 2 * (m * den) ≠ 2 * num + den ∧
      2 * num ≠ 2 * (m * den) + den) :
    roundDiv num den = m := by
  have hdm := Nat.div_add_mod num den
  have hmod := Nat.mod_lt num hd
  simp only [roundDiv]
  generalize num / den = q at *
  generalize num % den = r at *
  rw [Nat.mul_comm] at hdm
  subst hdm
  -- Only the quotient rounded down and the number above it are within one half.
  have hq : m = q ∨ m = q + 1 := by
    have h1 : q ≤ m := by
      by_contra hlt
      have : (m + 1) * den ≤ q * den := Nat.mul_le_mul_right den (by omega)
      have : (m + 1) * den = m * den + den := by ring
      omega
    have h2 : m < q + 2 := by
      by_contra hge
      have : (q + 2) * den ≤ m * den := Nat.mul_le_mul_right den (by omega)
      have : (q + 2) * den = q * den + 2 * den := by ring
      omega
    omega
  rcases hq with rfl | rfl
  · split
    · rfl
    · split
      · omega
      · have : m % 2 = 0 := by
          by_contra ho
          have := (htie (by omega)).2
          omega
        omega
  · have hs : (q + 1) * den = q * den + den := by ring
    split
    · omega
    · split
      · rfl
      · have : (q + 1) % 2 = 0 := by
          by_contra ho
          have := (htie (by omega)).1
          omega
        omega

theorem quarters {M : Nat} (hm : 0 < M) (D : Nat) :
    (4 * M - 1) * D + D = 4 * (M * D) ∧ (4 * M - 2) * D + 2 * D = 4 * (M * D) ∧
      (4 * M + 2) * D = 4 * (M * D) + 2 * D := by
  refine ⟨?_, ?_, by ring⟩
  · rw [← Nat.succ_mul, ← Nat.mul_assoc, show (4 * M - 1).succ = 4 * M by omega]
  · rw [← Nat.add_mul, Nat.sub_add_cancel (by omega), Nat.mul_assoc]

/-- A rational of the interval is within one half of the magnitude, in multiples
of the unit that the exponent allows; below a power of two it is within a
quarter. -/
theorem Binary.Covers.near {b : Binary} (hm : 0 < b.mantissa)
    {num den S D : Nat} (h : b.Covers num den) (hS : num * unitsOfOne = S)
    (hD : den * 2 ^ b.exponent = D) :
    4 * (b.mantissa * D) ≤ 4 * S + 2 * D ∧
      4 * S ≤ 4 * (b.mantissa * D) + 2 * D ∧
      (b.mantissa % 2 = 1 →
        4 * (b.mantissa * D) < 4 * S + 2 * D ∧
          4 * S < 4 * (b.mantissa * D) + 2 * D) ∧
      (b.mantissa = exponentBit → 0 < b.exponent →
        4 * (b.mantissa * D) ≤ 4 * S + D) := by
  obtain ⟨M, E⟩ := b
  simp only at hm hD ⊢
  simp only [Binary.Covers, Binary.lowerEnd, Binary.upperEnd, Nat.pow_eq] at h
  have hend (k : Nat) : k * 2 ^ E * den = k * D := by
    rw [← hD]
    ring
  rw [hS, hend, hend] at h
  obtain ⟨h1, h2, hu⟩ := quarters hm D
  rw [hu] at h
  by_cases hc : M = exponentBit ∧ 0 < E
  · rw [if_pos hc] at h
    omega
  · rw [if_neg hc] at h
    omega

theorem log2_eq {n k : Nat} (h : 2 ^ k ≤ n) (h' : n < 2 ^ (k + 1)) :
    n.log2 = k :=
  (Nat.log2_eq_iff (by have := Nat.two_pow_pos k; omega)).2 ⟨h, h'⟩

/-- A rational of the interval has the pattern of the magnitude as its nearest
one. -/
theorem nearestPattern_eq {b : Binary} (hb : b.Canonical) (hm : 0 < b.mantissa)
    {num den : Nat} (hd : 0 < den) (h : b.Covers num den) :
    nearestPattern num den = b.pattern := by
  obtain ⟨hlo, hhi, hodd, hhalf⟩ := h.near hm rfl rfl
  obtain ⟨M, E⟩ := b
  have hlow := hb.lower
  have hup := hb.upper
  simp only [exponentBit] at hlow hup hm hlo hhi hodd hhalf
  simp only [nearestPattern, Nat.pow_eq]
  generalize num * unitsOfOne = S at *
  have hpow (k : Nat) : 2 ^ (k + E) * den = 2 ^ k * (den * 2 ^ E) := by ring
  have hD : 0 < den * 2 ^ E := Nat.mul_pos hd (Nat.two_pow_pos E)
  have hS : S / den < 2 ^ (53 + E) := by
    rw [Nat.div_lt_iff_lt_mul hd, hpow]
    have : M * (den * 2 ^ E) ≤ (2 ^ 53 - 1) * (den * 2 ^ E) :=
      Nat.mul_le_mul_right _ (by omega)
    omega
  -- The exponent of the quotient is the one of the magnitude, unless the
  -- quotient lies in the quarter below a power of two.
  by_cases hfull : E = 0 ∨ 2 ^ (52 + E) ≤ S / den
  · have he : (S / den).log2 - 52 = E := by
      rcases hfull with rfl | hge
      · rcases Nat.eq_zero_or_pos (S / den) with hz | hpos
        · rw [hz]
          rfl
        · have := (Nat.log2_lt (Nat.ne_of_gt hpos)).2 hS
          omega
      · rw [log2_eq hge (by rwa [Nat.add_right_comm])]
        omega
    rw [he, roundDiv_eq (m := M) hD (by omega) (by omega) (by omega)]
  · obtain ⟨hE, hlt⟩ := not_or.1 hfull
    rw [Nat.not_le, Nat.div_lt_iff_lt_mul hd, hpow] at hlt
    have hM : M = 2 ^ 52 := by
      by_contra hne
      have : (2 ^ 52 + 1) * (den * 2 ^ E) ≤ M * (den * 2 ^ E) :=
        Nat.mul_le_mul_right _ (by omega)
      omega
    subst hM
    obtain ⟨k, rfl⟩ := Nat.exists_eq_succ_of_ne_zero hE
    have hhalf := hhalf rfl (Nat.succ_pos k)
    have hDk : den * 2 ^ (k + 1) = 2 * (den * 2 ^ k) := by ring
    rw [hDk] at hlt hlo hhi hhalf hD
    have he : (S / den).log2 - 52 = k := by
      rw [log2_eq (k := 51 + (k + 1)), Nat.add_comm 51]
      · omega
      · rw [Nat.le_div_iff_mul_le hd, hpow, hDk]
        omega
      · rw [Nat.div_lt_iff_lt_mul hd,
          show 51 + (k + 1) + 1 = 52 + (k + 1) by omega, hpow, hDk]
        omega
    rw [he, roundDiv_eq (m := 2 ^ 53) (Nat.pos_of_mul_pos_left hD) (by omega)
      (by omega) (by omega)]
    simp only [Binary.pattern, exponentBit]
    omega

/-! ## Reading decimals -/

/-- The decimals `m · 10 ^ e` and `m' · 10 ^ e'` are one rational. -/
def SameDecimal (m : Nat) (e : Int) (m' : Nat) (e' : Int) : Prop :=
  m * 10 ^ e.toNat * 10 ^ (-e').toNat = m' * 10 ^ e'.toNat * 10 ^ (-e).toNat

/-- The decimal `m · 10 ^ e` lies in the interval that rounds to the
magnitude. -/
def Binary.CoversDecimal (b : Binary) (m : Nat) (e : Int) : Prop :=
  b.Covers (m * 10 ^ e.toNat) (10 ^ (-e).toNat)

theorem Binary.CoversDecimal.of_same {b : Binary} {m m' : Nat} {e e' : Int}
    (h : b.CoversDecimal m e) (hs : SameDecimal m e m' e') :
    b.CoversDecimal m' e' :=
  Covers.of_eq h (Nat.pow_pos (by decide)) (Nat.pow_pos (by decide)) hs

theorem two_pow_three_mul_le (n : Nat) : 2 ^ (3 * n) ≤ 10 ^ n := by
  rw [Nat.pow_mul]
  exact Nat.pow_le_pow_left (by decide) n

theorem exists_unitsOfOne_eq : ∃ k, k = 1074 ∧ unitsOfOne = 2 ^ k := by
  refine ⟨1074, rfl, ?_⟩
  unfold unitsOfOne
  generalize 1074 = k
  exact Nat.pow_eq

/-- The ends of the interval around a positive magnitude are positive and not
far above it. -/
theorem Binary.Canonical.ends {b : Binary} (hb : b.Canonical)
    (hm : 0 < b.mantissa) :
    2 ≤ b.lowerEnd ∧ b.upperEnd ≤ 2 ^ (55 + b.exponent) := by
  have hup := hb.upper
  obtain ⟨M, E⟩ := b
  simp only [exponentBit] at hup hm ⊢
  simp only [lowerEnd, upperEnd, Nat.pow_eq]
  constructor
  · have : 2 ≤ 4 * M - if M = exponentBit ∧ 0 < E then 1 else 2 := by
      split <;> omega
    exact Nat.le_trans this (Nat.le_mul_of_pos_right _ (Nat.two_pow_pos E))
  · rw [Nat.pow_add]
    exact Nat.mul_le_mul_right _ (by omega)

theorem Binary.Covers.le {b : Binary} {num den : Nat} (h : b.Covers num den) :
    b.lowerEnd * den ≤ 4 * (num * unitsOfOne) ∧
      4 * (num * unitsOfOne) ≤ b.upperEnd * den := by
  unfold Binary.Covers at h
  omega

section
variable {b : Binary} {m : Nat} {e : Int}

theorem Binary.CoversDecimal.pos (h : b.CoversDecimal m e) (hb : b.Canonical)
    (hm : 0 < b.mantissa) : 0 < m := by
  apply Nat.pos_of_ne_zero
  rintro rfl
  have hlo := (Covers.le h).1
  rw [Nat.zero_mul, Nat.zero_mul, Nat.mul_zero, Nat.le_zero,
    Nat.mul_eq_zero] at hlo
  have := (hb.ends hm).1
  have : 0 < 10 ^ (-e).toNat := Nat.pow_pos (by decide)
  omega

/-- A decimal of the interval of a magnitude is not beyond the doubles. -/
theorem Binary.CoversDecimal.le_400 (h : b.CoversDecimal m e) (hb : b.Canonical)
    (hm : 0 < b.mantissa) : e ≤ 400 := by
  by_contra hlt
  have hpos := h.pos hb hm
  obtain ⟨k, hk, hU⟩ := exists_unitsOfOne_eq
  have hhi := (Covers.le h).2
  rw [show (-e).toNat = 0 by omega, Nat.pow_zero, Nat.mul_one] at hhi
  -- As `8 ≤ 10`, the decimal is at least `2 ^ 1203` units of one, which is
  -- above every upper end.
  have h1 := Nat.le_trans hhi (hb.ends hm).2
  have h2 : 2 ^ (3 * 401 + k) ≤ m * 10 ^ e.toNat * unitsOfOne := by
    rw [hU, Nat.pow_add]
    apply Nat.mul_le_mul_right
    calc 2 ^ (3 * 401)
      _ ≤ 2 ^ (3 * e.toNat) := Nat.pow_le_pow_right (by decide) (by omega)
      _ ≤ 10 ^ e.toNat := two_pow_three_mul_le _
      _ ≤ m * 10 ^ e.toNat := Nat.le_mul_of_pos_left _ hpos
  have hE := hb.exponent_le
  have h3 : 2 ^ (55 + b.exponent) < 2 ^ (3 * 401 + k) :=
    Nat.pow_lt_pow_right (by decide) (by omega)
  omega

/-- A decimal of the interval of a positive magnitude is not too close to
zero. -/
theorem Binary.CoversDecimal.neg_le (h : b.CoversDecimal m e) (hb : b.Canonical)
    (hm : 0 < b.mantissa) (he : e < 0) : -e ≤ 400 + m.log2 := by
  by_contra hlt
  obtain ⟨k, hk, hU⟩ := exists_unitsOfOne_eq
  have hlo := (Covers.le h).1
  rw [show e.toNat = 0 by omega, Nat.pow_zero, Nat.mul_one] at hlo
  -- The coefficient has at most `m.log2 + 1` bits, and the power of ten divides
  -- all of them away.
  have h1 : 2 ^ (3 * (401 + m.log2)) ≤ 10 ^ (-e).toNat :=
    Nat.le_trans (Nat.pow_le_pow_right (by decide) (by omega))
      (two_pow_three_mul_le _)
  have h2 : 2 * 10 ^ (-e).toNat ≤ b.lowerEnd * 10 ^ (-e).toNat :=
    Nat.mul_le_mul_right _ (hb.ends hm).1
  have h3 : m * unitsOfOne ≤ 2 ^ (m.log2 + 1 + k) := by
    rw [hU, Nat.pow_add]
    exact Nat.mul_le_mul_right _ (Nat.le_of_lt Nat.lt_log2_self)
  have h4 : 2 * 2 ^ (m.log2 + 1 + k) < 2 ^ (3 * (401 + m.log2)) := by
    rw [← Nat.pow_add_one']
    exact Nat.pow_lt_pow_right (by decide) (by omega)
  omega

/-- A decimal of the interval of a magnitude is read as the magnitude. -/
theorem decimalPattern_eq (hb : b.Canonical) (hpos : 0 < b.mantissa)
    (h : b.CoversDecimal m e) :
    decimalPattern m e = b.pattern := by
  have hn := nearestPattern_eq hb hpos (Nat.pow_pos (by decide)) h
  have hmin : min infinityPattern b.pattern = b.pattern :=
    Nat.min_eq_right (Nat.le_of_lt hb.finite)
  have hm := h.pos hb hpos
  unfold decimalPattern
  simp only [Nat.pow_eq]
  rw [if_neg (Nat.ne_of_gt hm)]
  by_cases he : 0 ≤ e
  · have hle := h.le_400 hb hpos
    rw [if_pos he, if_neg (by omega)]
    rw [show (-e).toNat = 0 by omega, Nat.pow_zero] at hn
    rw [hn, hmin]
  · have hle := h.neg_le hb hpos (by omega)
    rw [if_neg he, if_neg (by omega)]
    rw [show e.toNat = 0 by omega, Nat.pow_zero, Nat.mul_one] at hn
    rw [hn, hmin]

end

/-! ## The shortest decimal -/

theorem exists_gridUnit_eq : ∃ k, k = 325 ∧ gridUnit = 10 ^ k := by
  refine ⟨325, rfl, ?_⟩
  unfold gridUnit
  generalize 325 = k
  exact Nat.pow_eq

/-- The points that a grid holds for a magnitude lie in its interval. -/
theorem Binary.coversDecimal_of_holds {b : Binary} {n c : Nat}
    (h : b.holds n c = true) :
    b.CoversDecimal c ((n : Int) - 325) := by
  obtain ⟨k, hk, hG⟩ := exists_gridUnit_eq
  have hpoint : 4 * c * gridStep n = 4 * (c * 10 ^ n * unitsOfOne) := by
    rw [gridStep, Nat.pow_eq]
    ring
  have hcov : b.Covers (c * 10 ^ n) (10 ^ k) := by
    simp only [Binary.holds, hpoint, hG] at h
    unfold Binary.Covers
    split at h
    · next heven =>
      simp only [Bool.and_eq_true, Nat.ble_eq] at h
      exact Or.inr ⟨heven, h⟩
    · simp only [Bool.and_eq_true, Nat.blt_eq] at h
      exact Or.inl h
  unfold Binary.CoversDecimal
  apply hcov.of_eq (Nat.pow_pos (by decide)) (Nat.pow_pos (by decide))
  rw [Nat.mul_assoc, Nat.mul_assoc, ← Nat.pow_add, ← Nat.pow_add,
    show n + (-((n : Int) - 325)).toNat = ((n : Int) - 325).toNat + k by omega]

theorem Binary.holds_of_onGrid? {b : Binary} {n c : Nat}
    (h : b.onGrid? n = some c) :
    b.holds n c = true := by
  unfold Binary.onGrid? at h
  simp only at h
  split at h
  · next h0 h1 =>
    simp only [Option.some.injEq] at h
    subst h
    split
    · exact h0
    · exact h1
  · next h0 _ =>
    simp only [Option.some.injEq] at h
    exact h ▸ h0
  · next _ h1 =>
    simp only [Option.some.injEq] at h
    exact h ▸ h1
  · simp at h

/-- The lower end is at least a quarter of a unit below a positive magnitude,
the upper end above. -/
theorem Binary.lowerEnd_add_lt {b : Binary} (hm : 0 < b.mantissa) (g : Nat)
    (hg : 0 < g) :
    b.lowerEnd * g + g ≤ 4 * (b.units * g) ∧
      4 * (b.units * g) < b.upperEnd * g := by
  obtain ⟨M, E⟩ := b
  simp only at hm
  simp only [lowerEnd, upperEnd, units, Nat.pow_eq, Nat.mul_assoc]
  have hg' : g ≤ 2 ^ E * g := Nat.le_mul_of_pos_left g (Nat.two_pow_pos E)
  generalize 2 ^ E * g = P at *
  obtain ⟨h1, h2, hu⟩ := quarters hm P
  constructor
  · split <;> omega
  · omega

theorem ten_mul_unitsOfOne_lt : 10 * unitsOfOne < gridUnit := by decide +kernel

/-- The finest grid has a point for every positive magnitude: its step is less
than a tenth of the distance between neighbours, so the point just below the
magnitude is in the interval. -/
theorem Binary.onGrid?_zero {b : Binary} (hm : 0 < b.mantissa) :
    ∃ c, b.onGrid? 0 = some c := by
  have hbelow : b.holds 0 (b.units * gridUnit / gridStep 0) = true := by
    have hstep : gridStep 0 = unitsOfOne := by
      rw [gridStep, Nat.pow_eq, Nat.pow_zero, Nat.one_mul]
    have hfine := ten_mul_unitsOfOne_lt
    have hends := lowerEnd_add_lt hm gridUnit (by omega)
    have hU : 0 < unitsOfOne := by decide +kernel
    unfold Binary.holds
    simp only [hstep]
    generalize unitsOfOne = U at *
    generalize gridUnit = G at *
    have hdm := Nat.div_add_mod (b.units * G) U
    have hmod := Nat.mod_lt (b.units * G) hU
    have hpoint : 4 * (b.units * G / U) * U = 4 * (U * (b.units * G / U)) := by
      ring
    rw [hpoint]
    split
    · simp only [Bool.and_eq_true, Nat.ble_eq]
      omega
    · simp only [Bool.and_eq_true, Nat.blt_eq]
      omega
  unfold Binary.onGrid?
  simp only
  rw [hbelow]
  split
  · exact ⟨_, rfl⟩
  · exact ⟨_, rfl⟩
  · exact ⟨_, rfl⟩
  · next h _ => simp at h

theorem Binary.coversDecimal_shortestFrom {b : Binary} (hm : 0 < b.mantissa)
    (n : Nat) :
    b.CoversDecimal (b.shortestFrom n).coefficient
      (b.shortestFrom n).place := by
  -- The search goes from the widest grid to the finest one, where it cannot
  -- fail.
  induction n with
  | zero =>
    obtain ⟨c, hc⟩ := onGrid?_zero hm
    rw [Binary.shortestFrom, hc]
    exact coversDecimal_of_holds (holds_of_onGrid? hc)
  | succ n ih =>
    rw [Binary.shortestFrom]
    split
    · next c hc => exact coversDecimal_of_holds (holds_of_onGrid? hc)
    · exact ih

theorem Binary.coversDecimal_shortest {b : Binary} (hm : 0 < b.mantissa) :
    b.CoversDecimal b.shortest.coefficient b.shortest.place := by
  rw [Binary.shortest, if_neg (Nat.ne_of_gt hm)]
  exact coversDecimal_shortestFrom hm _

/-- A decimal equal to the shortest one of a magnitude is read as the
magnitude. -/
theorem decimalPattern_of_same_shortest {b : Binary} (hb : b.Canonical)
    {m : Nat} {e : Int}
    (h : SameDecimal b.shortest.coefficient b.shortest.place m e) :
    decimalPattern m e = b.pattern := by
  rcases Nat.eq_zero_or_pos b.mantissa with h0 | hpos
  · have hexp : b.exponent = 0 := by
      have := hb.lower
      simp only [exponentBit] at this
      omega
    have hm : m = 0 := by
      rw [Binary.shortest, if_pos h0, SameDecimal] at h
      simpa using h
    rw [decimalPattern, if_pos hm, Binary.pattern, h0, hexp, Nat.zero_mul]
  · exact decimalPattern_eq hb hpos
      ((Binary.coversDecimal_shortest hpos).of_same h)

end Worksheet.Decimal

import Mathlib.Data.List.Induction
import Mathlib.Tactic.Ring
import Worksheet.Proofs.Decimal.Nearest
import Worksheet.Proofs.Decimal.Numeral

/-!
# Notations read back

The plain and the round-trip notation of a finite double are numerals, and each
is read back as the double. Two doubles with one round-trip text are therefore
one double.
-/

namespace Worksheet.Decimal

/-! ## Digit strings -/

theorem isDigit_digitChar {n : Nat} (h : n < 10) :
    (digitChar n).isDigit = true := by
  have : ∀ m < 10, (digitChar m).isDigit = true := by decide
  exact this n h

theorem isDigit_of_mem_digits {n : Nat} : ∀ c ∈ digits n, c.isDigit = true := by
  fun_induction digits n with
  | case1 n h => simpa using isDigit_digitChar h
  | case2 n h ih =>
    intro c hc
    rcases List.mem_append.1 hc with hc | hc
    · exact ih c hc
    · rw [List.mem_singleton.1 hc]
      exact isDigit_digitChar (Nat.mod_lt n (by decide))

theorem digits_ne_nil (n : Nat) : digits n ≠ [] := by
  rw [digits]
  split <;> simp

theorem isDigit_of_mem_zeros {n : Nat} : ∀ c ∈ zeros n, c.isDigit = true := by
  intro c hc
  rw [List.eq_of_mem_replicate hc]
  rfl

theorem valueOf_append (s t : Text) :
    valueOf (s ++ t) = valueOf s * 10 ^ t.length + valueOf t := by
  induction t using List.reverseRecOn with
  | nil => simp [valueOf]
  | append_singleton t c ih =>
    rw [← List.append_assoc, valueOf_append_singleton, valueOf_append_singleton,
      ih, List.length_append, List.length_singleton]
    ring

theorem valueOf_zeros (n : Nat) : valueOf (zeros n) = 0 := by
  induction n with
  | zero => rfl
  | succ n ih =>
    rw [zeros, List.replicate_succ', valueOf_append_singleton]
    change 10 * valueOf (zeros n) + _ = 0
    rw [ih]
    rfl

/-! ## Numerals of decimals -/

/-- The numeral is well formed, has the sign, and denotes the decimal. -/
structure Scaled.WrittenBy (d : Scaled) (sign : Text) (n : Numeral) : Prop where
  written : n.Written Char.isDigit
  sign : n.sign = sign
  same : SameDecimal d.coefficient d.place
    (valueOf (n.whole ++ n.fraction)) n.place

theorem mem_sign_numeral {sign : Text} (h : sign = [] ∨ sign = ['-']) :
    sign = [] ∨ sign = ['+'] ∨ sign = ['-'] := by
  rcases h with none | minus
  · exact Or.inl none
  · exact Or.inr (Or.inr minus)

/-- Zeros at the end of a whole number take its power of ten, and those after
the point are counted out again. -/
theorem sameDecimal_zeros (m : Nat) {e : Int} (he : 0 ≤ e) (k : Nat) :
    SameDecimal m e (m * 10 ^ (e.toNat + k)) (-k) := by
  unfold SameDecimal
  rw [show (-(-(k : Int))).toNat = k by omega,
    show (-(k : Int)).toNat = 0 by omega, show (-e).toNat = 0 by omega,
    Nat.pow_zero, Nat.mul_one, Nat.mul_one, Nat.mul_assoc, ← Nat.pow_add]

section

variable {d : Scaled} {sign : Text} (hs : sign = [] ∨ sign = ['-'])

include hs

/-- Digits with zeros up to the unit. -/
theorem Scaled.writtenBy_whole (hplace : 0 ≤ d.place) :
    d.WrittenBy sign ⟨sign, digits d.coefficient ++ zeros d.place.toNat, [],
      none⟩ := by
  refine ⟨⟨mem_sign_numeral hs, by simp [digits_ne_nil], ?_, by simp, by simp⟩,
    rfl, ?_⟩
  · intro c hc
    rcases List.mem_append.1 hc with hc | hc
    · exact isDigit_of_mem_digits c hc
    · exact isDigit_of_mem_zeros c hc
  · have hz : (zeros d.place.toNat).length = d.place.toNat :=
      List.length_replicate
    simpa [valueOf_append, valueOf_digits, hz, valueOf_zeros, Numeral.place]
      using sameDecimal_zeros d.coefficient hplace 0

/-- Digits with a point among them. -/
theorem Scaled.writtenBy_split {k : Nat} (hk : (-d.place).toNat = k)
    (negative : ¬0 ≤ d.place) (hlt : k < (digits d.coefficient).length) :
    d.WrittenBy sign
      ⟨sign, (digits d.coefficient).take ((digits d.coefficient).length - k),
      (digits d.coefficient).drop ((digits d.coefficient).length - k),
      none⟩ := by
  refine ⟨⟨mem_sign_numeral hs, ?_, ?_, ?_, by simp⟩, rfl, ?_⟩
  · simp [digits_ne_nil]
    omega
  · intro c hc
    exact isDigit_of_mem_digits c (List.mem_of_mem_take hc)
  · intro c hc
    exact isDigit_of_mem_digits c (List.mem_of_mem_drop hc)
  · simp only [List.take_append_drop, valueOf_digits, Numeral.place,
      Option.elim, List.length_drop]
    rw [show (0 : Int) - ((digits d.coefficient).length -
      ((digits d.coefficient).length - k) : Nat) = d.place by omega]
    rfl

/-- Digits behind a zero, the point and more zeros. -/
theorem Scaled.writtenBy_fraction {k : Nat} (hk : (-d.place).toNat = k)
    (negative : ¬0 ≤ d.place) (hge : ¬k < (digits d.coefficient).length) :
    d.WrittenBy sign
      ⟨sign, ['0'], zeros (k - (digits d.coefficient).length) ++
        digits d.coefficient, none⟩ := by
  refine ⟨⟨mem_sign_numeral hs, by simp, by simp, ?_, by simp⟩, rfl, ?_⟩
  · intro c hc
    rcases List.mem_append.1 hc with hc | hc
    · exact isDigit_of_mem_zeros c hc
    · exact isDigit_of_mem_digits c hc
  · have hzero : valueOf ['0'] = 0 := rfl
    have hlen : (zeros (k - (digits d.coefficient).length)).length =
        k - (digits d.coefficient).length := List.length_replicate
    simp only [valueOf_append, hzero, valueOf_zeros, valueOf_digits,
      Numeral.place, Option.elim, List.length_append, hlen, Nat.zero_mul,
      Nat.zero_add]
    rw [show (0 : Int) -
      (k - (digits d.coefficient).length + (digits d.coefficient).length :
      Nat) = d.place by omega]
    rfl

end

theorem Scaled.exists_positional (d : Scaled) {sign : Text}
    (hs : sign = [] ∨ sign = ['-']) :
    ∃ n, d.WrittenBy sign n ∧ n.power = none ∧
      n.text = sign ++ d.positional := by
  have hne := digits_ne_nil d.coefficient
  unfold positional
  simp only
  split
  · next hplace =>
    refine ⟨_, writtenBy_whole hs hplace, rfl, ?_⟩
    simp [Numeral.text, fractionText, powerText]
  · next hplace =>
    generalize hk : (-d.place).toNat = k
    split
    · next hlt =>
      refine ⟨_, writtenBy_split hs hk hplace hlt, rfl, ?_⟩
      have : ¬ (digits d.coefficient).length ≤
          (digits d.coefficient).length - k := by omega
      simp [Numeral.text, fractionText, powerText, this]
    · next hge =>
      refine ⟨_, writtenBy_fraction hs hk hplace hge, rfl, ?_⟩
      simp [Numeral.text, fractionText, powerText, hne]

theorem Scaled.exists_pointed (d : Scaled) {sign : Text}
    (hs : sign = [] ∨ sign = ['-']) :
    ∃ n, d.WrittenBy sign n ∧ n.text = sign ++ d.pointed := by
  unfold pointed
  split
  · next hplace =>
    have hz : (zeros d.place.toNat).length = d.place.toNat :=
      List.length_replicate
    refine ⟨⟨sign, digits d.coefficient ++ zeros d.place.toNat, ['0'], none⟩,
      ⟨⟨mem_sign_numeral hs, by simp [digits_ne_nil], ?_, by simp, by simp⟩,
        rfl, ?_⟩, ?_⟩
    · intro c hc
      rcases List.mem_append.1 hc with hc | hc
      · exact isDigit_of_mem_digits c hc
      · exact isDigit_of_mem_zeros c hc
    · have hv : valueOf (digits d.coefficient ++ zeros d.place.toNat ++ ['0']) =
          d.coefficient * 10 ^ (d.place.toNat + 1) := by
        rw [List.append_assoc, valueOf_append, valueOf_digits, valueOf_append,
          valueOf_zeros]
        simp [hz, valueOf, digitValue]
      -- The zero after the point is one more digit, and one more place.
      simp only [hv, Numeral.place]
      exact sameDecimal_zeros d.coefficient hplace 1
    · simp [Numeral.text, fractionText, powerText, positional, hplace]
  · obtain ⟨n, hn, -, ht⟩ := d.exists_positional hs
    exact ⟨n, hn, ht⟩

theorem exists_signedDigits (i : Int) : ∃ p : Power, p.Written Char.isDigit ∧
    p.text = 'e' :: signedDigits i ∧ signedValue p.sign p.digits = i := by
  cases i with
  | ofNat n =>
    refine ⟨⟨'e', [], digits n⟩, ⟨Or.inl rfl, Or.inl rfl, digits_ne_nil n,
      isDigit_of_mem_digits⟩, rfl, ?_⟩
    simp [signedValue, valueOf_digits]
  | negSucc n =>
    refine ⟨⟨'e', ['-'], digits (n + 1)⟩,
      ⟨Or.inl rfl, Or.inr (Or.inr rfl), digits_ne_nil (n + 1),
      isDigit_of_mem_digits⟩, rfl, ?_⟩
    simp [signedValue, valueOf_digits]
    omega

theorem Scaled.exists_exponential (d : Scaled) {sign : Text}
    (hs : sign = [] ∨ sign = ['-']) :
    ∃ n, d.WrittenBy sign n ∧ n.text = sign ++ d.exponential := by
  have hds := isDigit_of_mem_digits (n := d.coefficient)
  obtain ⟨c, ds, hcons⟩ :=
    List.exists_cons_of_ne_nil (digits_ne_nil d.coefficient)
  obtain ⟨p, hp, ht, hv⟩ := exists_signedDigits d.magnitude
  rw [hcons] at hds
  refine ⟨⟨sign, [c], ds, some p⟩,
    ⟨⟨mem_sign_numeral hs, by simp, ?_, ?_, ?_⟩, rfl, ?_⟩, ?_⟩
  · intro a ha
    apply hds
    simp [List.mem_singleton.1 ha]
  · intro a ha
    exact hds a (List.mem_cons_of_mem c ha)
  · intro q hq
    obtain rfl : p = q := by simpa using hq
    exact hp
  · have hvalue := valueOf_digits d.coefficient
    rw [hcons] at hvalue
    simp only [List.singleton_append, hvalue, Numeral.place, Option.elim, hv,
      magnitude, hcons, List.length_cons]
    rw [show ((ds.length + 1 : Nat) : Int) + d.place - 1 - ds.length =
      d.place by omega]
    rfl
  · simp only [Numeral.text, exponential, hcons, powerText, Option.elim, ht,
      fractionText]
    cases ds with
    | nil => simp
    | cons a ds => simp

theorem Scaled.exists_roundTrip (d : Scaled) {sign : Text}
    (hs : sign = [] ∨ sign = ['-']) :
    ∃ n, d.WrittenBy sign n ∧ n.text = sign ++ d.roundTrip := by
  unfold roundTrip
  split
  · exact d.exists_pointed hs
  · exact d.exists_exponential hs

/-! ## Doubles -/

/-- A numeral that denotes the shortest decimal of a finite double has the
double as its value. -/
theorem Scaled.WrittenBy.value_eq {x : Float} {negative : Bool} {m : Binary}
    (hm : m.Canonical) (hx : ofSignPattern negative m.pattern = x) {n : Numeral}
    (h : m.shortest.WrittenBy (signed negative []) n) : n.value = x := by
  have hsign : decide (n.sign = ['-']) = negative := by
    rw [h.sign]
    cases negative <;> rfl
  rw [Numeral.value, nearest, hsign, decimalPattern_of_same_shortest hm h.same,
    hx]

theorem signed_eq_append (negative : Bool) (s : Text) :
    signed negative s = signed negative [] ++ s := by
  cases negative <;> rfl

theorem signed_nil_cases (negative : Bool) :
    signed negative [] = [] ∨ signed negative [] = ['-'] := by
  cases negative
  · exact Or.inl rfl
  · exact Or.inr rfl

/-- A finite double is written in the plain notation as digits with an optional
fraction, after an optional minus sign, and the numeral has the double as its
value. -/
theorem exists_plain {x : Float} (hx : x.isFinite = true) :
    ∃ n : Numeral, n.Written Char.isDigit ∧ n.power = none ∧ n.text = plain x ∧
      n.value = x := by
  obtain ⟨negative, m, hc, hm, hpat⟩ := content_of_isFinite hx
  obtain ⟨n, hn, hp, ht⟩ :=
    m.shortest.exists_positional (signed_nil_cases negative)
  refine ⟨n, hn.written, hp, ?_, hn.value_eq hm hpat⟩
  rw [ht, plain, writeWith, hc, ← signed_eq_append]

theorem exists_roundTrip {x : Float} (hx : x.isFinite = true) :
    ∃ n : Numeral, n.Written Char.isDigit ∧ n.text = roundTrip x ∧
      n.value = x := by
  obtain ⟨negative, m, hc, hm, hpat⟩ := content_of_isFinite hx
  obtain ⟨n, hn, ht⟩ := m.shortest.exists_roundTrip (signed_nil_cases negative)
  refine ⟨n, hn.written, ?_, hn.value_eq hm hpat⟩
  rw [ht, roundTrip, writeWith, hc, ← signed_eq_append]

theorem value?_text {n : Numeral} (hn : n.Written Char.isDigit) :
    value? n.text = some n.value := by
  rw [value?, Numeral.read?, Numeral.readWith?_text marksApart_isDigit hn]

/-- The round-trip notation of a finite double is read back as the double. -/
theorem value?_roundTrip {x : Float} (hx : x.isFinite = true) :
    value? (roundTrip x) = some x := by
  obtain ⟨n, hn, ht, hv⟩ := exists_roundTrip hx
  rw [← ht, value?_text hn, hv]

/-- What is not finite is written by a name, and the name tells what it is. -/
theorem writeWith_of_not_finite (write : Binary → Text) {x : Float}
    (hx : ¬ x.isFinite = true) :
    (content x = .undefined ∧ writeWith write x = ['N', 'a', 'N']) ∨
      (content x = .infinite false ∧ writeWith write x = ['i', 'n', 'f']) ∨
      (content x = .infinite true ∧
        writeWith write x = ['-', 'i', 'n', 'f']) := by
  unfold writeWith
  rcases content_of_not_isFinite hx with h | ⟨negative, h⟩
  · rw [h]
    exact Or.inl ⟨rfl, rfl⟩
  · rw [h]
    cases negative
    · exact Or.inr (Or.inl ⟨rfl, rfl⟩)
    · exact Or.inr (Or.inr ⟨rfl, rfl⟩)

theorem value?_roundTrip_of_not_finite {x : Float} (hx : ¬ x.isFinite = true) :
    value? (roundTrip x) = none := by
  rcases writeWith_of_not_finite _ hx with ⟨-, h⟩ | ⟨-, h⟩ | ⟨-, h⟩ <;>
    rw [roundTrip, h] <;> rfl

/-- Two doubles with one round-trip text are one double. -/
theorem roundTrip_injective {x y : Float} (h : roundTrip x = roundTrip y) :
    x = y := by
  by_cases hx : x.isFinite = true
  · have hv := value?_roundTrip hx
    by_cases hy : y.isFinite = true
    · rw [h, value?_roundTrip hy] at hv
      exact (Option.some.inj hv).symm
    · rw [h, value?_roundTrip_of_not_finite hy] at hv
      exact absurd hv (by simp)
  · by_cases hy : y.isFinite = true
    · have hv := value?_roundTrip hy
      rw [← h, value?_roundTrip_of_not_finite hx] at hv
      exact absurd hv (by simp)
    · -- Both are written by name, and the three names differ.
      apply eq_of_content_eq hx
      rcases writeWith_of_not_finite _ hx with
        ⟨hc, ht⟩ | ⟨hc, ht⟩ | ⟨hc, ht⟩ <;>
        rcases writeWith_of_not_finite _ hy with
          ⟨hc', ht'⟩ | ⟨hc', ht'⟩ | ⟨hc', ht'⟩ <;>
        rw [roundTrip, roundTrip, ht, ht'] at h <;>
          first | exact absurd h (by decide) | rw [hc, hc']

/-- Doubles are written alike when they have one word, or when neither is a
number. -/
theorem roundTrip_eq_iff {x y : Float} :
    roundTrip x = roundTrip y ↔ x.toBits = y.toBits ∨
      (x.isNaN = true ∧ y.isNaN = true) := by
  constructor
  · intro h
    exact Or.inl (Float.toBits_inj.2 (roundTrip_injective h))
  · rintro (h | ⟨hx, hy⟩)
    · rw [Float.toBits_inj.1 h]
    · rw [eq_of_isNaN hx hy]

end Worksheet.Decimal

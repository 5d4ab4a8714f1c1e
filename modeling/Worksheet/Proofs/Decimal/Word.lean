import Mathlib
import Worksheet.Decimal.Notation

/-!
# Words of doubles

A double is its word of 64 bits: one for the sign, eleven for the exponent, 52
for the fraction. The word determines the double, and what is no number has one
word only. The content of a finite double is a canonical magnitude, and its sign
and pattern give the double back.
-/

namespace Worksheet.Decimal

open Float.Model (Format UnpackedFloat)
open Float.Model.UnpackedFloat

/-! ## The fields of a word -/

theorem toNat_unpackMantissa (b : BitVec Format.binary64.numBits) :
    (unpackMantissa b).toNat = b.toNat % 2 ^ 52 := by
  simp [unpackMantissa]

theorem toNat_unpackExponent (b : BitVec Format.binary64.numBits) :
    (unpackExponent b).toNat = b.toNat / 2 ^ 52 % 2 ^ 11 := by
  simp [unpackExponent, Nat.shiftRight_eq_div_pow]

/-! ## Finite words and the word that is no number -/

theorem isFinite_unpack (b : BitVec Format.binary64.numBits) :
    (UnpackedFloat.unpack Format.binary64 b).isFinite = true ↔
      b.toNat % 2 ^ 63 < 2047 * 2 ^ 52 := by
  have hb : b.toNat < 2 ^ 64 := b.isLt
  have hE := toNat_unpackExponent b
  unfold UnpackedFloat.unpack
  simp only
  -- The exponent field is full just when the word is that of an infinity or
  -- above it.
  split
  · next he =>
    have : (unpackExponent b).toNat = 2047 := congrArg BitVec.toNat he
    have hge : ¬ b.toNat % 2 ^ 63 < 2047 * 2 ^ 52 := by omega
    split <;> simpa only [UnpackedFloat.isFinite, Bool.false_eq_true, false_iff]
      using hge
  · next he =>
    have hne : (unpackExponent b).toNat ≠ 2047 := by
      intro h
      exact he (BitVec.eq_of_toNat_eq h)
    have hlt : b.toNat % 2 ^ 63 < 2047 * 2 ^ 52 := by omega
    split
    · split <;> simpa only [UnpackedFloat.isFinite, true_iff] using hlt
    · simpa only [UnpackedFloat.isFinite, true_iff] using hlt

theorem isNaN_unpack (b : BitVec Format.binary64.numBits) :
    (UnpackedFloat.unpack Format.binary64 b).isNaN = true ↔
      2047 * 2 ^ 52 < b.toNat % 2 ^ 63 := by
  have hb : b.toNat < 2 ^ 64 := b.isLt
  have hE := toNat_unpackExponent b
  have hM := toNat_unpackMantissa b
  unfold UnpackedFloat.unpack
  simp only
  split
  · next he =>
    have : (unpackExponent b).toNat = 2047 := congrArg BitVec.toNat he
    split
    · next hm =>
      have : (unpackMantissa b).toNat = 0 := congrArg BitVec.toNat hm
      simp only [UnpackedFloat.isNaN, Bool.false_eq_true, false_iff]
      omega
    · next hm =>
      have : (unpackMantissa b).toNat ≠ 0 := by
        intro h
        exact hm (BitVec.eq_of_toNat_eq h)
      simp only [UnpackedFloat.isNaN, true_iff]
      omega
  · next he =>
    have hne : (unpackExponent b).toNat ≠ 2047 := by
      intro h
      exact he (BitVec.eq_of_toNat_eq h)
    have hlt : ¬ 2047 * 2 ^ 52 < b.toNat % 2 ^ 63 := by omega
    split
    · split <;> simpa only [UnpackedFloat.isNaN, Bool.false_eq_true, false_iff]
        using hlt
    · simpa only [UnpackedFloat.isNaN, Bool.false_eq_true, false_iff] using hlt

theorem isFinite_iff_toBits (x : Float) :
    x.isFinite = true ↔ x.toBits.toNat % signBit < infinityPattern :=
  isFinite_unpack x.toModel.toBits.toBitVec

theorem isNaN_iff_toBits (x : Float) :
    x.isNaN = true ↔ infinityPattern < x.toBits.toNat % signBit :=
  isNaN_unpack x.toModel.toBits.toBitVec

/-- What is no number has one word. -/
theorem eq_of_isNaN {x y : Float} (hx : x.isNaN = true) (hy : y.isNaN = true) :
    x = y := by
  rw [Float.isNaN_eq_decide_eq_nan, decide_eq_true_eq] at hx hy
  rw [hx, hy]

/-! ## Contents -/

/-- A magnitude in the form that a word holds: with the mantissa as large as the
exponent allows, and below infinity. -/
structure Binary.Canonical (m : Binary) : Prop where
  lower : m.exponent = 0 ∨ exponentBit ≤ m.mantissa
  upper : m.mantissa < 2 * exponentBit
  finite : m.pattern < infinityPattern

theorem Binary.canonical_ofPattern {b : Nat} (h : b < infinityPattern) :
    (Binary.ofPattern b).Canonical := by
  refine ⟨?_, ?_, by rwa [Binary.pattern_ofPattern]⟩
  · rw [Binary.ofPattern]
    split
    · exact Or.inl rfl
    · exact Or.inr (Nat.le_add_right ..)
  · rw [Binary.ofPattern]
    split
    · next h => exact Nat.lt_of_lt_of_le h (by decide)
    · have := Nat.mod_lt b (show 0 < exponentBit by decide)
      simp only
      omega

theorem Binary.Canonical.exponent_le {m : Binary} (h : m.Canonical) :
    m.exponent ≤ 2046 := by
  have := h.finite
  simp only [Binary.pattern, infinityPattern, exponentBit] at this
  omega

theorem ofSignPattern_toBits (x : Float) :
    ofSignPattern (decide (signBit ≤ x.toBits.toNat))
      (x.toBits.toNat % signBit) = x := by
  have hb : x.toBits.toNat < 2 ^ 64 := x.toBits.toNat_lt
  have h : (if decide (signBit ≤ x.toBits.toNat) = true then signBit else 0) +
      x.toBits.toNat % signBit = x.toBits.toNat := by
    by_cases hs : signBit ≤ x.toBits.toNat
    · rw [if_pos (decide_eq_true hs)]
      simp only [signBit] at hs ⊢
      omega
    · rw [if_neg (by simpa using hs)]
      simp only [signBit] at hs ⊢
      omega
  rw [ofSignPattern, h, UInt64.ofNat_toNat, Float.ofBits_toBits]

/-- A finite double holds a sign and a canonical magnitude, which give it
back. -/
theorem content_of_isFinite {x : Float} (h : x.isFinite = true) :
    ∃ negative m, content x = .finite negative m ∧ m.Canonical ∧
      ofSignPattern negative m.pattern = x := by
  have hlt := (isFinite_iff_toBits x).1 h
  refine ⟨signBit ≤ x.toBits.toNat, .ofPattern (x.toBits.toNat % signBit), ?_,
    Binary.canonical_ofPattern hlt, ?_⟩
  · simp only [content]
    rw [if_neg (by omega), if_neg (by omega)]
  · rw [Binary.pattern_ofPattern, ofSignPattern_toBits]

theorem content_of_not_isFinite {x : Float} (h : ¬ x.isFinite = true) :
    content x = .undefined ∨ ∃ negative, content x = .infinite negative := by
  rw [isFinite_iff_toBits] at h
  simp only [content]
  split
  · exact Or.inl rfl
  · rw [if_pos (by omega)]
    exact Or.inr ⟨_, rfl⟩

/-- A double that is not finite holds an infinity, or nothing numeric; two that
hold the same are the same. -/
theorem eq_of_content_eq {x y : Float} (hx : ¬ x.isFinite = true)
    (h : content x = content y) :
    x = y := by
  rw [isFinite_iff_toBits] at hx
  have hsx := ofSignPattern_toBits x
  have hsy := ofSignPattern_toBits y
  have hnx := isNaN_iff_toBits x
  have hny := isNaN_iff_toBits y
  simp only [content] at h
  generalize x.toBits.toNat = a at *
  generalize y.toBits.toNat = b at *
  split at h
  · next ha =>
    split at h
    · next hb => exact eq_of_isNaN (hnx.2 ha) (hny.2 hb)
    · split at h <;> simp at h
  · next ha =>
    -- Not finite and not above infinity: the pattern is infinity itself.
    have ha' : a % signBit = infinityPattern := by omega
    rw [if_pos ha'] at h
    split at h
    · simp at h
    · split at h
      · next hb =>
        simp only [Content.infinite.injEq] at h
        rw [← hsx, ← hsy, ha', hb, h]
      · simp at h

end Worksheet.Decimal

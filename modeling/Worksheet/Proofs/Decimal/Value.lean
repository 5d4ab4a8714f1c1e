import Worksheet.Proofs.Decimal.Notation
import Worksheet.Proofs.Text.Parts

/-!
# What texts say as numbers

A text says a number when it is a written numeral with ASCII digits, and what is
read in front of a text is the longest one. Rounding stops at infinity, so that
every text that says a number says one that is a number, however large its
exponent.
-/

namespace Worksheet.Decimal

open Text
open Float.Model (Format UnpackedFloat)
open Float.Model.UnpackedFloat

/-! ## Numerals as texts -/

/-- The texts that are one numeral with ASCII digits. -/
def IsNumeral (s : Text) : Prop :=
  ∃ n : Numeral, n.Written Char.isDigit ∧ n.text = s

theorem not_isNumeral_nil : ¬IsNumeral [] := by
  rintro ⟨n, written, htext⟩
  obtain ⟨c, s, hs, -⟩ := written.head_text
  rw [htext] at hs
  cases hs

/-- The numeral at the front of a text, empty when there is none. -/
def numeralText (s : Text) : Text :=
  (Numeral.read? s).elim [] fun (n, _) => n.text

theorem size_numeralText (s : Text) : (numeralText s).size = numeralSize s := by
  rw [numeralText, numeralSize]
  cases Numeral.read? s <;> rfl

/-- A numeral in front of a text is a front of the one that is read. -/
theorem isPrefix_numeralText {s t : Text} (numeral : IsNumeral t)
    (front : t <+: s) :
    t <+: numeralText s := by
  obtain ⟨n, written, rfl⟩ := numeral
  obtain ⟨u, rfl⟩ := front
  obtain ⟨m, more, rest, read, longer, -⟩ :=
    Numeral.exists_readWith?_text_append marksApart_isDigit written u
  refine ⟨more, ?_⟩
  simp only [numeralText, Numeral.read?, read, Option.elim_some, longer]

/-- The size of the numeral in front of a text is that of the longest one, and
zero when there is none. -/
theorem numeralSize_eq_iff {s : Text} {n : Nat} :
    numeralSize s = n ↔ LongestSize IsNumeral s n := by
  rw [← size_numeralText]
  refine (longestSize_iff not_isNumeral_nil ?_ ?_ fun t =>
    isPrefix_numeralText).symm
  · cases read : Numeral.read? s with
    | none => simp [numeralText, read]
    | some found =>
      obtain ⟨m, rest⟩ := found
      have join := Numeral.text_append_of_readWith? read
      exact ⟨rest, by simpa [numeralText, read] using join⟩
  · cases read : Numeral.read? s with
    | none => exact .inl (by simp [numeralText, read])
    | some found =>
      obtain ⟨m, rest⟩ := found
      exact .inr ⟨m, Numeral.written_of_readWith? read,
        by simp [numeralText, read]⟩

/-- A text has the value of the numeral that it is, and none when it is not one
numeral. -/
theorem value?_eq_some_iff {s : Text} {x : Float} :
    value? s = some x ↔ ∃ n : Numeral, n.Written Char.isDigit ∧ n.text = s ∧
      n.value = x := by
  constructor
  · intro h
    unfold value? at h
    split at h
    · next n read =>
      have join := Numeral.text_append_of_readWith? read
      rw [List.append_nil] at join
      exact ⟨n, Numeral.written_of_readWith? read, join, Option.some.inj h⟩
    · cases h
  · rintro ⟨n, written, rfl, rfl⟩
    exact value?_text written

/-! ## Values that are numbers -/

/-- A word that is packed from its parts is no number only with a full exponent
and a fraction. -/
theorem isNaN_unpack_packComponents {sign : Sign} {exponent : BitVec 11}
    {mantissa : BitVec 52} (h : (UnpackedFloat.unpack Format.binary64
      (packComponents Format.binary64 sign exponent mantissa)).isNaN = true) :
    exponent = -1#11 ∧ mantissa ≠ 0#52 := by
  unfold UnpackedFloat.unpack at h
  simp only [unpackExponent_packComponents, unpackMantissa_packComponents] at h
  split at h
  · next full =>
    split at h
    · cases h
    · next fraction => exact ⟨full, fraction⟩
  · split at h
    · split at h <;> cases h
    · cases h

/-- Packing makes a word that is no number of nothing else. -/
theorem eq_notANumber_of_pack {f : UnpackedFloat}
    (h : (UnpackedFloat.unpack Format.binary64
      (UnpackedFloat.pack Format.binary64 f)).isNaN = true) :
    f = .notANumber := by
  revert h
  cases f using UnpackedFloat.pack.fun_cases_unfolding Format.binary64 with
  | case1 => exact fun _ => rfl
  | case2 s => exact fun h => absurd rfl (isNaN_unpack_packComponents h).2
  | case3 s => exact fun h => absurd rfl (isNaN_unpack_packComponents h).2
  | case4 s m e pos biased large =>
    exact fun h => absurd rfl (isNaN_unpack_packComponents h).2
  | case5 s m e pos bits biased small normal =>
    intro h
    have full : biased % 2 ^ 11 = 2047 :=
      congrArg BitVec.toNat (isNaN_unpack_packComponents h).1
    have below : ¬2 ^ 11 ≤ biased + 1 := small
    omega
  | case6 s m e pos bits biased small subnormal =>
    exact fun h => absurd (isNaN_unpack_packComponents h).1 (by decide)

/-- Up to the pattern of infinity, patterns are those of numbers. -/
theorem isNaN_ofSignPattern {negative : Bool} {pattern : Nat}
    (h : pattern ≤ infinityPattern) :
    (ofSignPattern negative pattern).isNaN = false := by
  rw [Bool.eq_false_iff]
  intro nan
  have unpacked := eq_notANumber_of_pack nan
  have above := (isNaN_unpack _).1 (congrArg UnpackedFloat.isNaN unpacked)
  rw [UInt64.toNat_toBitVec, UInt64.toNat_ofNat'] at above
  have bound : pattern ≤ 2047 * 2 ^ 52 := h
  have sign : (if negative then signBit else 0) = 0 ∨
      (if negative then signBit else 0) = 2 ^ 63 := by
    cases negative
    · exact .inl rfl
    · exact .inr rfl
  omega

/-- Rounding stops at infinity. -/
theorem decimalPattern_le (m : Nat) (e : Int) :
    decimalPattern m e ≤ infinityPattern := by
  unfold decimalPattern
  split
  · exact Nat.zero_le _
  split
  · split
    · exact Nat.le_refl _
    · exact Nat.min_le_left _ _
  · split
    · exact Nat.zero_le _
    · exact Nat.min_le_left _ _

theorem Numeral.isNaN_value (n : Numeral) : n.value.isNaN = false :=
  isNaN_ofSignPattern (decimalPattern_le _ _)

/-- What a text says is a number. -/
theorem isNaN_of_value? {s : Text} {x : Float} (h : value? s = some x) :
    x.isNaN = false := by
  obtain ⟨n, -, -, rfl⟩ := value?_eq_some_iff.1 h
  exact n.isNaN_value

end Worksheet.Decimal

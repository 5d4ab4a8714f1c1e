import Mathlib.Data.List.Basic
import Worksheet.Text.Basic

/-!
# Letters and their case

Letters and digits are ASCII characters, so that what holds of them can be
checked on their codes. Only letters have two cases: of two characters with the
same lower case both are letters, or they are the same.
-/

namespace Worksheet.Text

/-- A property of the ASCII characters can be checked on their codes. -/
theorem ascii_check {f : Char → Bool}
    (h : ∀ n ∈ List.range 128, f (Char.ofNat n) = true) {c : Char}
    (hc : c.toNat < 128) : f c = true := by
  have checked := h c.toNat (List.mem_range.2 hc)
  rwa [Char.ofNat_toNat] at checked

theorem lt_of_isAlphanum {c : Char} (h : c.isAlphanum = true) :
    c.toNat < 128 := by
  have ranges : (decide ('A'.val ≤ c.val ∧ c.val ≤ 'Z'.val) ||
      (decide ('a'.val ≤ c.val) && decide (c.val ≤ 'z'.val)) ||
      (decide ('0'.val ≤ c.val) && decide (c.val ≤ '9'.val))) = true := h
  simp only [Bool.or_eq_true, Bool.and_eq_true, decide_eq_true_eq,
    UInt32.le_iff_toNat_le] at ranges
  have code : c.toNat = c.val.toNat := rfl
  have upper : 'Z'.val.toNat = 90 := rfl
  have lower : 'z'.val.toNat = 122 := rfl
  have digit : '9'.val.toNat = 57 := rfl
  omega

theorem isAlphanum_of_isAlpha {c : Char} (h : c.isAlpha = true) :
    c.isAlphanum = true := by
  have either : (c.isAlpha || c.isDigit) = true := by rw [h, Bool.true_or]
  exact either

theorem toLower_of_not_isAlpha {c : Char} (h : c.isAlpha = false) :
    c.toLower = c := by
  have outside : ¬ (c.val ≥ 'A'.val ∧ c.val ≤ 'Z'.val) := by
    intro upper
    have letter : c.isUpper = true := decide_eq_true upper
    have either : (c.isUpper || c.isLower) = false := h
    rw [letter, Bool.true_or] at either
    cases either
  exact dif_neg outside

theorem isAlpha_toLower (c : Char) : c.toLower.isAlpha = c.isAlpha := by
  cases letter : c.isAlpha with
  | false => rw [toLower_of_not_isAlpha letter, letter]
  | true =>
    have small := lt_of_isAlphanum (isAlphanum_of_isAlpha letter)
    have checked := ascii_check (f := fun c => !c.isAlpha || c.toLower.isAlpha)
      (by decide +kernel) small
    rwa [letter, Bool.not_true, Bool.false_or] at checked

section

variable {c d : Char} (h : c.toLower = d.toLower)

include h

theorem isAlpha_eq_of_toLower_eq : c.isAlpha = d.isAlpha := by
  rw [← isAlpha_toLower c, h, isAlpha_toLower]

theorem eq_of_toLower_eq (other : c.isAlpha = false) : c = d := by
  have other' : d.isAlpha = false := by rw [← isAlpha_eq_of_toLower_eq h, other]
  rwa [toLower_of_not_isAlpha other, toLower_of_not_isAlpha other'] at h

theorem isAlphanum_eq_of_toLower_eq : c.isAlphanum = d.isAlphanum := by
  cases letter : c.isAlpha with
  | false => rw [eq_of_toLower_eq h letter]
  | true =>
    rw [isAlphanum_of_isAlpha letter,
      isAlphanum_of_isAlpha (by rw [← isAlpha_eq_of_toLower_eq h, letter])]

end

/-! ## Texts that differ in letter case -/

theorem toUpper_toLower {c : Char} (h : c.isAlphanum = true) :
    c.toLower.toUpper = c.toUpper := by
  have checked := ascii_check (f := fun c => c.toLower.toUpper == c.toUpper)
    (by decide +kernel)
    (lt_of_isAlphanum h)
  exact eq_of_beq checked

theorem toLower_toUpper {c : Char} (h : c.isAlphanum = true) :
    c.toUpper.toLower = c.toLower := by
  have checked := ascii_check (f := fun c => c.toUpper.toLower == c.toLower)
    (by decide +kernel)
    (lt_of_isAlphanum h)
  exact eq_of_beq checked

/-- Texts that differ in the case of letters only. -/
def SameLetters (s t : Text) : Prop := s.map Char.toLower = t.map Char.toLower

namespace SameLetters

theorem refl (s : Text) : SameLetters s s := rfl

section

variable {s s' t t' : Text} (h : SameLetters s t)

include h

theorem symm : SameLetters t s := Eq.symm h

theorem append (h' : SameLetters s' t') : SameLetters (s ++ s') (t ++ t') := by
  rw [SameLetters, List.map_append, List.map_append, h, h']

theorem mem {c : Char} (other : c.isAlpha = false) (hc : c ∈ s) : c ∈ t := by
  have lower : c.toLower ∈ t.map Char.toLower := h ▸ List.mem_map_of_mem hc
  obtain ⟨d, hd, same⟩ := List.mem_map.1 lower
  rwa [eq_of_toLower_eq same.symm other]

theorem isAlphanum (word : ∀ c ∈ s, c.isAlphanum = true) :
    ∀ d ∈ t, d.isAlphanum = true := by
  intro d hd
  have lower : d.toLower ∈ s.map Char.toLower := h ▸ List.mem_map_of_mem hd
  obtain ⟨c, hc, same⟩ := List.mem_map.1 lower
  rw [← isAlphanum_eq_of_toLower_eq same, word c hc]

/-- Words that differ in letter case are the same in capitals. -/
theorem map_toUpper (word : ∀ c ∈ s, c.isAlphanum = true) :
    s.map Char.toUpper = t.map Char.toUpper := by
  have capitals {u : Text} (hu : ∀ c ∈ u, c.isAlphanum = true) :
      u.map Char.toUpper = (u.map Char.toLower).map Char.toUpper := by
    rw [List.map_map]
    exact List.map_congr_left fun c hc => (toUpper_toLower (hu c hc)).symm
  rw [capitals word, capitals (h.isAlphanum word), h]

end

end SameLetters

end Worksheet.Text

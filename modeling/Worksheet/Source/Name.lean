import Worksheet.Text.Numeral

/-!
# Names

A name begins with a letter or an underscore and goes on with letters, numerals,
underscores and prime marks.
-/

namespace Worksheet

open Text

/-- Whether a character may begin a name. -/
def isNameStart (c : Char) : Bool := isAlphabetic c || c == '_'

/-- Whether a character may stand in a name. -/
def isNameChar (c : Char) : Bool :=
  isAlphanumeric c || c == '_' || c == '′' || c == '″'

def isName : Text → Bool
  | [] => false
  | c :: s => isNameStart c && s.all isNameChar

/-- Splits the longest name off the front of a text. -/
def takeName? : Text → Option (Text × Text)
  | [] => none
  | c :: s =>
    if isNameStart c then some
      (c :: s.takeWhile isNameChar, s.dropWhile isNameChar) else none

theorem isNameChar_of_isNameStart {c : Char} (h : isNameStart c = true) :
    isNameChar c = true := by
  rw [isNameStart, Bool.or_eq_true] at h
  rcases h with h | h
  · simp [isNameChar, isAlphanumeric_of_isAlphabetic h]
  · simp [isNameChar, h]

/-- Nothing is lost, and what was split off is a name. -/
theorem takeName?_join {s name rest : Text}
    (h : takeName? s = some (name, rest)) :
    name ++ rest = s ∧ isName name = true := by
  cases s with
  | nil => simp [takeName?] at h
  | cons c s =>
    rw [takeName?] at h
    split at h
    · next hc =>
      simp only [Option.some.injEq, Prod.mk.injEq] at h
      obtain ⟨rfl, rfl⟩ := h
      refine ⟨by simp [List.takeWhile_append_dropWhile], ?_⟩
      simp [isName, hc, List.all_takeWhile]
    · simp at h

end Worksheet

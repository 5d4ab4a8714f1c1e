import Worksheet.Text.Basic

/-!
# Ranges of characters

A property of characters is a table of closed ranges of code points. A character
has the property when some range holds it.
-/

namespace Worksheet.Text

abbrev CodeRange := Nat × Nat

/-- Whether a range of the table holds the character. -/
def inRanges (table : List CodeRange) (c : Char) : Bool :=
  table.any fun r => Nat.ble r.1 c.toNat && Nat.ble c.toNat r.2

theorem inRanges_iff {table : List CodeRange} {c : Char} :
    inRanges table c = true ↔ ∃ r ∈ table, r.1 ≤ c.toNat ∧ c.toNat ≤ r.2 := by
  simp [inRanges, List.any_eq_true]

end Worksheet.Text

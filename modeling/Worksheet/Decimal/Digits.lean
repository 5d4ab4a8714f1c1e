import Worksheet.Text.Basic

/-!
# Digit strings

The decimal digits of a natural number, most significant first, and the value of
a digit string.
-/

namespace Worksheet.Decimal

/-- The digit of a number below ten. -/
def digitChar (n : Nat) : Char := Char.ofNat (48 + n)

/-- The decimal digits of a number. -/
def digits (n : Nat) : Text :=
  if n < 10 then [digitChar n] else digits (n / 10) ++ [digitChar (n % 10)]
termination_by n

def digitValue (c : Char) : Nat := c.toNat - 48

def valueOf (s : Text) : Nat := s.foldl (fun n c => 10 * n + digitValue c) 0

/-- The digits of an integer, after a minus sign when it is negative. -/
def signedDigits : Int → Text
  | .ofNat n => digits n
  | .negSucc n => '-' :: digits (n + 1)

theorem digitValue_digitChar {n : Nat} (h : n < 10) :
    digitValue (digitChar n) = n := by
  have : ∀ m < 10, digitValue (digitChar m) = m := by decide
  exact this n h

theorem valueOf_append_singleton (s : Text) (c : Char) :
    valueOf (s ++ [c]) = 10 * valueOf s + digitValue c := by
  simp [valueOf]

/-- Writing a number and reading it back gives the number. -/
theorem valueOf_digits (n : Nat) : valueOf (digits n) = n := by
  fun_induction digits n with
  | case1 n h => simp [valueOf, digitValue_digitChar h]
  | case2 n h ih =>
    rw [valueOf_append_singleton, ih,
      digitValue_digitChar (Nat.mod_lt n (by omega))]
    omega

end Worksheet.Decimal

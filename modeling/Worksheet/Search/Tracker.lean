import Worksheet.Text.Basic

/-!
# Signature tracker

A tracker holds the signature of the problem at hand and counts how often it was
set to another one.
-/

namespace Worksheet

/-- The signature at hand and the number of changes. -/
structure Tracker where
  current : Option Text
  changes : Nat
  deriving DecidableEq

namespace Tracker

/-- No signature, no changes. -/
def start : Tracker := ⟨none, 0⟩

/-- Whether a signature is another one than the one at hand. -/
def differs (t : Tracker) (signature : Text) : Bool :=
  t.current != some signature

/-- Takes a signature; it counts as a change only when it is another one. -/
def update (t : Tracker) (signature : Text) : Tracker :=
  if t.differs signature then ⟨some signature, t.changes + 1⟩ else t

/-- Forgets the signature; the count stays. -/
def clear (t : Tracker) : Tracker := { t with current := none }

end Tracker
end Worksheet

import Worksheet.Markup.Unit
import Worksheet.Result.Block
import Worksheet.Result.Scalar
import Worksheet.Source.Unit

/-!
# Extraction

The final value of a result is the scalar in the tail of its block. Its unit is
the fraction in the tail of the markup, else the italic unit there, else the
unit token after the scalar. What cannot be extracted is a miss with its reason.
-/

namespace Worksheet

open Text Markup

/-- Why a value or a unit could not be extracted. -/
inductive MissReason where
  /-- No block has the name. -/
  | noBlock
  /-- The tail is no scalar. -/
  | unparsable
  /-- The tail has no unit. -/
  | noUnit
  deriving DecidableEq, Repr

/-- A value or a unit that could not be extracted. -/
structure Miss where
  name : Text
  reason : MissReason
  deriving DecidableEq

/-- The word for a reason. -/
def MissReason.word : MissReason → Text
  | noBlock => "NoBlock".toList
  | unparsable => "Unparsable".toList
  | noUnit => "NoUnit".toList

/-- The wording of a miss. -/
def Miss.message (m : Miss) : Text :=
  "無法擷取結果 ".toList ++ m.name ++ ": ".toList ++ m.reason.word

/-- The unit token after the scalar of a text. -/
def Vocabulary.unitAfterScalar? (v : Vocabulary) (s : Text) : Option Text :=
  match scalar? s with
  | some (_, rest) =>
    let unit := v.unitToken (trimStart rest)
    if unit.isEmpty then none else some unit
  | none => none

/-- The value of a block. -/
def ResultBlock.value (b : ResultBlock) : Except Miss Float :=
  match scalar? b.tail with
  | some (x, _) => .ok x
  | none => .error ⟨b.name, .unparsable⟩

/-- The unit of a block. -/
def ResultBlock.unit (v : Vocabulary) (b : ResultBlock) : Except Miss Text :=
  let drawn := Markup.tail b.markup
  match ((fractionUnit? drawn).or (italicUnit? drawn)).or
    (v.unitAfterScalar? b.tail) with
  | some unit => .ok unit
  | none => .error ⟨b.name, .noUnit⟩

end Worksheet

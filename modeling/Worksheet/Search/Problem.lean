import Worksheet.Decimal.Notation
import Worksheet.Json.Quoted
import Worksheet.Search.Fitness

/-!
# Problems

A problem names design variables and objectives, with a mode and a target for
each objective. Its signature is a text that tells problems apart, and with the
values of the design variables it gives the key of an evaluation. Both are
compact JSON: numbers stand as their round-trip texts and modes in their normal
form.
-/

namespace Worksheet

structure Problem where
  designVariables : List Text
  objectives : List Text
  modes : List Text
  targets : List Float
  deriving DecidableEq

namespace Problem

def goal (p : Problem) (i : Nat) : Goal := goalAt p.modes i

def target (p : Problem) (i : Nat) : Float := targetAt p.targets i

def signature (p : Problem) : Text :=
  Json.quotedObject
    [("design_variables".toList, p.designVariables),
     ("objectives".toList, p.objectives),
     ("modes".toList, p.modes.map normalizeMode),
     ("targets".toList, p.targets.map Decimal.roundTrip)]

def key (p : Problem) (values : List Float) : Text :=
  Json.quotedObject
    [("names".toList, p.designVariables),
     ("values".toList, values.map Decimal.roundTrip),
     ("objectives".toList, p.objectives),
     ("modes".toList, p.modes.map normalizeMode),
     ("targets".toList, p.targets.map Decimal.roundTrip)]

end Problem
end Worksheet

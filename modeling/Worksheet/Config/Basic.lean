import Worksheet.Error
import Worksheet.Source.UnitAlias

/-!
# Configurations

The configuration of a sheet holds its unit aliases and its vocabulary. The
configuration of a search holds the penalty for a missing objective, the
tolerance and the windows of the trend, and the capacity of the memo; it is
valid when the penalty is finite, the windows hold at least two evaluations and
the capacity, if there is one, is not zero.
-/

namespace Worksheet

structure SheetConfig where
  aliases : List UnitAlias
  vocabulary : Vocabulary
  deriving DecidableEq

namespace SheetConfig

/-- The default aliases and the built-in vocabulary. -/
def standard : SheetConfig := ⟨UnitAlias.defaults, .builtIn⟩

/-- Adds an alias at the end, in place of earlier ones of the same name. -/
def withAlias (c : SheetConfig) (a : UnitAlias) : SheetConfig :=
  { c with aliases := c.aliases.filter (·.name != a.name) ++ [a] }

def withoutAliases (c : SheetConfig) : SheetConfig := { c with aliases := [] }

def withVocabulary (c : SheetConfig) (v : Vocabulary) : SheetConfig :=
  { c with vocabulary := v }

end SheetConfig

structure SearchConfig where
  penalty : Float
  tolerance : Float
  trendWindow : Nat
  stagnationWindow : Nat
  capacity : Option Nat
  deriving DecidableEq

namespace SearchConfig

/-- The default configuration, with a memo without bound. -/
def standard : SearchConfig := ⟨1e12, 1e-6, 10, 5, none⟩

def fault? (c : SearchConfig) : Option ConfigFault :=
  if !c.penalty.isFinite then some (.penalty c.penalty)
  else if c.trendWindow < 2 ∨ c.stagnationWindow < 2 then some .window
  else if c.capacity = some 0 then some .capacity
  else none

/-- Accepts a configuration without fault. -/
def validate (c : SearchConfig) : Except SheetError SearchConfig :=
  match c.fault? with
  | some fault => .error (.invalidConfig fault)
  | none => .ok c

end SearchConfig
end Worksheet

import Worksheet.Config.Basic
import Worksheet.Json.Number

/-!
# Reading configurations

Configurations are read from JSON. A field that is absent takes its default, a
field of no known name is ignored, and a known field that is repeated or has a
value of the wrong kind makes the text unreadable. Both fields of an alias are
needed. The configuration of a search is validated.
-/

namespace Worksheet

open Json

/-- Reads a field that may be absent. -/
def fieldOr {α : Type} (default : α) (f : Value → Option α) :
    Option Value → Option α
  | some v => f v
  | none => some default

/-- Reads a whole text. -/
def readText {α : Type} (f : Value → Option α) (s : Text) :
    Except SheetError α :=
  match (Value.read? s).bind f with
  | some a => .ok a
  | none => .error (.invalidConfig .unreadable)

def Vocabulary.ofValue? (v : Value) : Option Vocabulary :=
  match v.record? ["extra_unit_chars".toList, "extra_functions".toList] with
  | some [chars, functions] => do
    some ⟨← fieldOr [] Value.text? chars,
      ← fieldOr [] (Value.list? Value.text?) functions⟩
  | _ => none

def UnitAlias.ofValue? (v : Value) : Option UnitAlias :=
  match v.record? ["alias".toList, "expansion".toList] with
  | some [some name, some expansion] =>
    do some ⟨← name.text?, ← expansion.text?⟩
  | _ => none

def SheetConfig.ofValue? (v : Value) : Option SheetConfig :=
  match v.record? ["unit_aliases".toList, "syntax".toList] with
  | some [aliases, vocabulary] => do
    some ⟨← fieldOr UnitAlias.defaults (Value.list? UnitAlias.ofValue?) aliases,
      ← fieldOr .builtIn Vocabulary.ofValue? vocabulary⟩
  | _ => none

def SearchConfig.ofValue? (v : Value) : Option SearchConfig :=
  match v.record? ["penalty_value".toList, "stagnation_tolerance".toList,
      "convergence_window".toList, "stagnation_window".toList,
      "cache_capacity".toList] with
  | some [penalty, tolerance, trendWindow, stagnationWindow, capacity] => do
    some ⟨← fieldOr standard.penalty Value.double? penalty,
      ← fieldOr standard.tolerance Value.double? tolerance,
      ← fieldOr standard.trendWindow Value.count? trendWindow,
      ← fieldOr standard.stagnationWindow Value.count? stagnationWindow,
      ← fieldOr standard.capacity (Value.optional? Value.count?) capacity⟩
  | _ => none

def Vocabulary.read (s : Text) : Except SheetError Vocabulary :=
  readText ofValue? s

def SheetConfig.read (s : Text) : Except SheetError SheetConfig :=
  readText ofValue? s

/-- Reads the configuration of a search and validates it. -/
def SearchConfig.read (s : Text) : Except SheetError SearchConfig :=
  match readText ofValue? s with
  | .ok c => c.validate
  | .error e => .error e

end Worksheet

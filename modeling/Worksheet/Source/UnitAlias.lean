import Worksheet.Source.Line
import Worksheet.Text.Row

/-!
# Unit aliases

An alias stands for a unit that the renderer does not know and is expanded
before rendering. Only the code of a line is touched, only where a unit can
stand: after a number, or after the closing brace of an input, with spaces and
tabs between. No letter, numeral or underscore may follow the alias, and of
several aliases the longest is taken. An alias that is also a name on a left
side of the source is not expanded at all.
-/

namespace Worksheet

open Text

/-- A unit and what it is written out as. -/
structure UnitAlias where
  name : Text
  expansion : Text
  deriving DecidableEq

namespace UnitAlias

/-- The units of force that measure by weight. -/
def defaults : List UnitAlias :=
  [⟨"kgf".toList, "(9.80665*N)".toList⟩,
   ⟨"tf".toList, "(9806.65*N)".toList⟩,
   ⟨"gf".toList, "(0.00980665*N)".toList⟩]

/-- Longer aliases come first, and aliases of one size in alphabetical order. -/
def precedes (a b : UnitAlias) : Bool :=
  b.name.size < a.name.size ||
    (a.name.size == b.name.size && !decide (b.name < a.name))

/-- Whether a character belongs to a word that would go on after an alias. -/
def isWordChar (c : Char) : Bool := isAlphanumeric c || c == '_'

/-- Whether a character belongs to a number. -/
def isNumberChar (c : Char) : Bool := c.isDigit || c == '.'

/-- Whether a unit can stand after a text, which is held backwards: the
text ends with a number, or with the braces of an input, and then spaces
and tabs. -/
def unitCanFollow (before : Text) : Bool :=
  match before.dropWhile (fun c => c == ' ' || c == '\t') with
  | '}' :: inside =>
    match inside.dropWhile (· != '{') with
    | [] => false
    | _ :: front => (trimStart front).head? == some '?'
  | last =>
    let token := last.takeWhile fun c => isWordChar c || c == '.'
    token.head?.any isNumberChar && token.getLast?.any isNumberChar

/-- Whether a text begins with the alias and no word goes on after it. -/
def standsAt (a : UnitAlias) (s : Text) : Bool :=
  match after? a.name s with
  | some rest => !rest.head?.any isWordChar
  | none => false

/-- Expands the aliases in what follows `before`, which is held backwards. Of an
alias that was expanded, `covered` characters are still to be passed over. -/
def expandAfter (aliases : List UnitAlias) (before : Text) :
    (covered : Nat) → Text → Text
  | _, [] => []
  | covered + 1, c :: s => expandAfter aliases (c :: before) covered s
  | 0, c :: s =>
    match if unitCanFollow before then aliases.find?
      (·.standsAt (c :: s)) else none with
    | some a =>
      a.expansion ++ expandAfter aliases (c :: before) (a.name.length - 1) s
    | none => c :: expandAfter aliases (c :: before) 0 s

/-- The aliases that may be expanded in a source whose left sides have the given
names, in the order in which they are tried. -/
def enabled (aliases : List UnitAlias) (declared : List Text) :
    List UnitAlias :=
  (aliases.filter fun a => !a.name.isEmpty &&
    !declared.contains a.name).mergeSort precedes

/-- The source with its aliases expanded. -/
def expand (v : Vocabulary) (aliases : List UnitAlias) (source : Text) : Text :=
  let read := (rows source).map fun r => Line.read v r.text
  let declared := read.flatMap fun l => l.statements.filterMap Statement.name?
  let aliases := enabled aliases declared
  if aliases.isEmpty then source
  else read.flatMap fun l => expandAfter aliases [] 0 l.code ++ l.comment

end UnitAlias
end Worksheet

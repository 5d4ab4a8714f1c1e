import Worksheet.Decimal.Numeral
import Worksheet.Json.Quoted

/-!
# JSON values

Reading follows the grammar of JSON to the end of the text. A number is kept as
the numeral it is written as, so that whoever asks for it decides what it may
be. Likewise a string without a text may stand as a value and as a key, and is
refused only where a text is asked for: the keys of a record are.
-/

namespace Worksheet.Json

open Decimal

inductive Value where
  | null
  | bool (b : Bool)
  | number (n : Numeral)
  | string (s : Option Text)
  | array (items : List Value)
  | object (fields : List (Option Text × Value))

/-- Whether a character may stand between the parts of a value. -/
def isGap (c : Char) : Bool := c == ' ' || c == '\t' || c == '\n' || c == '\r'

/-- The text without leading gaps. -/
def skipGap (s : Text) : Text := s.dropWhile isGap

/-- Whether a numeral is a JSON number: it has no plus sign in front and no idle
zero. -/
def isNumber (n : Numeral) : Bool :=
  n.sign != ['+'] && (n.whole == ['0'] || n.whole.head? != some '0')

def readNumber? (s : Text) : Option (Numeral × Text) :=
  (Numeral.read? s).bind fun (n, rest) =>
    if isNumber n then some (n, rest) else none

/-- Reads a key and the colon after it; the opening quote was passed. -/
def readKey? (s : Text) : Option (Option Text × Text) :=
  match readString? s with
  | some (key, rest) =>
    match skipGap rest with
    | ':' :: rest => some (key, rest)
    | _ => none
  | none => none

mutual

/-- Reads a value in at most `fuel` steps. -/
def readValue? : (fuel : Nat) → Text → Option (Value × Text)
  | 0, _ => none
  | fuel + 1, s =>
    match skipGap s with
    | 'n' :: 'u' :: 'l' :: 'l' :: rest => some (.null, rest)
    | 't' :: 'r' :: 'u' :: 'e' :: rest => some (.bool true, rest)
    | 'f' :: 'a' :: 'l' :: 's' :: 'e' :: rest => some (.bool false, rest)
    | '"' :: rest => (readString? rest).map fun (s, rest) => (.string s, rest)
    | '[' :: rest =>
      match skipGap rest with
      | ']' :: rest => some (.array [], rest)
      | rest =>
        (readItems? fuel rest).map fun (items, rest) => (.array items, rest)
    | '{' :: rest =>
      match skipGap rest with
      | '}' :: rest => some (.object [], rest)
      | rest =>
        (readFields? fuel rest).map fun (fields, rest) => (.object fields, rest)
    | rest => (readNumber? rest).map fun (n, rest) => (.number n, rest)

/-- Reads the items of an array and its closing bracket. -/
def readItems? : (fuel : Nat) → Text → Option (List Value × Text)
  | 0, _ => none
  | fuel + 1, s =>
    match readValue? fuel s with
    | some (item, rest) =>
      match skipGap rest with
      | ']' :: rest => some ([item], rest)
      | ',' :: rest =>
        (readItems? fuel rest).map fun (items, rest) => (item :: items, rest)
      | _ => none
    | none => none

/-- Reads the fields of an object and its closing brace. -/
def readFields? : (fuel : Nat) → Text →
    Option (List (Option Text × Value) × Text)
  | 0, _ => none
  | fuel + 1, s =>
    match skipGap s with
    | '"' :: rest =>
      match readKey? rest with
      | some (key, rest) =>
        match readValue? fuel rest with
        | some (field, rest) =>
          match skipGap rest with
          | '}' :: rest => some ([(key, field)], rest)
          | ',' :: rest =>
            (readFields? fuel rest).map fun (fields, rest) =>
              ((key, field) :: fields, rest)
          | _ => none
        | none => none
      | none => none
    | _ => none

end

/-- Reads a text that is one value. Every step but the first of a value passes a
character, so the fuel suffices. -/
def Value.read? (s : Text) : Option Value :=
  match readValue? (2 * s.length + 2) s with
  | some (v, rest) => if (skipGap rest).isEmpty then some v else none
  | none => none

/-- The values of a record with the given keys, absent ones as `none`. An object
may have further keys, but none without a text and none of these twice; an array
gives the values in the order of the keys. -/
def Value.record? (keys : List Text) : Value → Option (List (Option Value))
  | object fields =>
    if fields.all (·.1.isSome) &&
      keys.all fun k => (fields.filter (·.1 == some k)).length ≤ 1 then
      some (keys.map fun k => (fields.find? (·.1 == some k)).map Prod.snd)
    else none
  | array items =>
    if items.length ≤ keys.length then
      some (items.map some ++ List.replicate (keys.length - items.length) none)
    else none
  | _ => none

def Value.text? : Value → Option Text
  | string s => s
  | _ => none

/-- The items of an array, each read by `f`. -/
def Value.list? {α : Type} (f : Value → Option α) : Value → Option (List α)
  | array items => items.mapM f
  | _ => none

end Worksheet.Json

import Worksheet.Decimal.Digits

/-!
# Character entities

An entity is `&`, a reference of one to ten bytes without a semicolon, and `;`.
The reference is a name of the table, or `#` with the decimal digits of a code
point, or `#x` with the hexadecimal ones; a plus sign may stand before the
digits. Other references are no entities.
-/

namespace Worksheet.Markup

open Text

/-- An entity, by its reference and the character it stands for. -/
structure Entity where
  reference : Text
  character : Char
  deriving DecidableEq

namespace Entity

def text (e : Entity) : Text := '&' :: (e.reference ++ [';'])

def named : List (Text × Char) :=
  [("nbsp", '\u00a0'), ("thinsp", '\u2009'), ("ensp", '\u2002'),
   ("emsp", '\u2003'), ("amp", '&'), ("lt", '<'), ("gt", '>'), ("quot", '"'),
   ("apos", '\''), ("minus", '-'), ("times", '×'), ("middot", '·'),
   ("divide", '÷'), ("deg", '°'), ("micro", 'µ'), ("mu", 'μ'), ("Omega", 'Ω'),
   ("omega", 'ω'), ("alpha", 'α'), ("beta", 'β'), ("gamma", 'γ'),
   ("delta", 'δ'), ("Delta", 'Δ'), ("epsilon", 'ε'), ("lambda", 'λ'),
   ("pi", 'π'), ("rho", 'ρ'), ("sigma", 'σ'), ("tau", 'τ'), ("phi", 'φ'),
   ("sup2", '²'), ("sup3", '³'), ("le", '≤'), ("ge", '≥'), ("ne", '≠'),
   ("equiv", '≡'), ("radic", '√'), ("prime", '′'),
   ("Prime", '″')].map fun (n, c) => (n.toList, c)

def hexValue? (c : Char) : Option Nat :=
  if c.isDigit then some (c.toNat - 48)
  else if 'a' ≤ c ∧ c ≤ 'f' then some (c.toNat - 87)
  else if 'A' ≤ c ∧ c ≤ 'F' then some (c.toNat - 55)
  else none

def hexNumber? (s : Text) : Option Nat :=
  s.foldl (fun n c => n.bind fun n => (hexValue? c).map (16 * n + ·)) (some 0)

def decimalNumber? (s : Text) : Option Nat :=
  if s.all Char.isDigit then some (Decimal.valueOf s) else none

/-- Digits after an optional plus sign; at least one is needed. -/
def unsigned? (s : Text) : Option Text :=
  let ds := match s with
    | '+' :: ds => ds
    | ds => ds
  if ds.isEmpty then none else some ds

def character? (n : Nat) : Option Char :=
  if n.isValidChar then some (Char.ofNat n) else none

def resolve? : Text → Option Char
  | '#' :: 'x' :: s => (unsigned? s).bind hexNumber? |>.bind character?
  | '#' :: 'X' :: s => (unsigned? s).bind hexNumber? |>.bind character?
  | '#' :: s => (unsigned? s).bind decimalNumber? |>.bind character?
  | s => (named.find? (·.1 == s)).map Prod.snd

/-- Reads the entity whose `&` was just passed. -/
def readAfter? (s : Text) : Option (Entity × Text) :=
  let reference := s.takeWhile (· != ';')
  match s.dropWhile (· != ';') with
  | ';' :: rest =>
    if 0 < size reference && size reference ≤ 10 then
      (resolve? reference).map fun c => (⟨reference, c⟩, rest)
    else none
  | _ => none

/-- An entity that was read, followed by what was left, is the text. -/
theorem text_append_of_readAfter? {s rest : Text} {e : Entity}
    (h : readAfter? s = some (e, rest)) : e.text ++ rest = '&' :: s := by
  rw [readAfter?] at h
  split at h
  · next rest' hd =>
    split at h
    · obtain ⟨c, _, he⟩ := Option.map_eq_some_iff.1 h
      simp only [Prod.mk.injEq] at he
      obtain ⟨rfl, rfl⟩ := he
      have := List.takeWhile_append_dropWhile (p := (· != ';')) (l := s)
      rw [hd] at this
      simp [text, this]
    · simp at h
  · simp at h

end Entity
end Worksheet.Markup

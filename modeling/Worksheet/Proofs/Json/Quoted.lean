import Mathlib.Tactic.Common
import Worksheet.Json.Quoted

/-!
# Quoted texts

A quoted text is read back, and what follows it is left. A quoted text, an array
of quoted texts and an object of such arrays therefore show where they end, so
that each is written by one value only.
-/

namespace Worksheet.Json

/-! ## Strings -/

/-- The unit that a character is written as: its code when the escape has no
letter. -/
def StringUnit.ofChar (c : Char) : StringUnit :=
  if c.toNat < 32 ∧ c ∉ ['\n', '\r', '\t', '\x08', '\x0c'] then .code c.toNat
  else .char c

theorem hexCode?_low {n : Nat} (h : n < 32) :
    hexCode? '0' '0' (hexDigit (n / 16)) (hexDigit (n % 16)) = some n := by
  have : ∀ m < 32, hexCode? '0' '0' (hexDigit (m / 16)) (hexDigit (m % 16)) =
      some m := by decide
  exact this n h

/-- Reading undoes the escape of a character. -/
theorem readUnits?_escape (c : Char) (s : Text) :
    readUnits? (escape c ++ s) = pushUnit (.ofChar c) (readUnits? s) := by
  unfold escape
  split
  · next h => subst h; rfl
  split
  · next h => subst h; rfl
  split
  · next h => subst h; rfl
  split
  · next h => subst h; rfl
  split
  · next h => subst h; rfl
  split
  · next h => subst h; rfl
  split
  · next h => subst h; rfl
  next hq hb hn hr ht hB hf =>
  split
  · next low =>
    have special : c ∉ ['\n', '\r', '\t', '\x08', '\x0c'] := by simp [*]
    simp [readUnits?, hexCode?_low low, StringUnit.ofChar, low, special]
  · next high =>
    have plain : ¬(c = '\\' ∨ c.toNat < 32) := by simp [hb, high]
    simp [readUnits?, StringUnit.ofChar, high, hb]

/-- A string is read back up to its closing quote. -/
theorem readUnits?_flatMap_escape (s t : Text) :
    readUnits? (s.flatMap escape ++ '"' :: t) = some (s.map .ofChar, t) := by
  induction s with
  | nil => rfl
  | cons c s ih =>
    rw [List.flatMap_cons, List.append_assoc, readUnits?_escape, ih]
    rfl

theorem StringUnit.ofChar_cases (c : Char) :
    ofChar c = .char c ∨ ofChar c = .code c.toNat ∧ c.toNat < 32 := by
  unfold ofChar
  split
  · next h => exact .inr ⟨rfl, h.1⟩
  · exact .inl rfl

/-- A code below the surrogates stands for its character. -/
theorem unitsText?_code {n : Nat} {us : List StringUnit} {s : Text}
    (low : n < 32) (h : unitsText? us = some s) :
    unitsText? (.code n :: us) = some (.ofNat n :: s) := by
  -- So it neither begins nor ends a pair.
  have noHigh : isHigh n = false := by simp [isHigh]; omega
  have noLow : isLow n = false := by simp [isLow]; omega
  cases us with
  | nil => simp_all [unitsText?]
  | cons u us => cases u <;> simp_all [unitsText?]

/-- The units that characters are written as stand for these characters. -/
theorem unitsText?_ofChar (s : Text) : unitsText? (s.map .ofChar) = some s := by
  induction s with
  | nil => rfl
  | cons c s ih =>
    rcases StringUnit.ofChar_cases c with hc | ⟨hc, low⟩
    · simp [hc, unitsText?, ih]
    · rw [List.map_cons, hc, unitsText?_code low ih, Char.ofNat_toNat]

/-- A quoted text is read back up to its end. -/
theorem readString?_quote (s t : Text) :
    readString? (s.flatMap escape ++ '"' :: t) = some (some s, t) := by
  simp [readString?, readUnits?_flatMap_escape, unitsText?_ofChar]

theorem quote_append (s t : Text) :
    quote s ++ t = '"' :: (s.flatMap escape ++ '"' :: t) := by
  simp [quote]

/-- A quoted text shows where it ends. -/
theorem quote_append_inj {s s' t t' : Text}
    (h : quote s ++ t = quote s' ++ t') :
    s = s' ∧ t = t' := by
  rw [quote_append, quote_append, List.cons.injEq] at h
  have read := readString?_quote s t
  rw [h.2, readString?_quote] at read
  simpa [eq_comm] using read

/-! ## Arrays and objects -/

/-- How a value is written so that it shows where it ends, and never starts with
the closing character of what it stands in. -/
structure SelfDelimiting {α : Type} (write : α → Text)
    (close : Char) : Prop where
  comma : close ≠ ','
  start : ∀ a t u, write a ++ t ≠ close :: u
  inj : ∀ a b t u, write a ++ t = write b ++ u → a = b ∧ t = u

theorem commaSeparated_cons_append (s : Text) (ss : List Text) (t : Text) :
    commaSeparated (s :: ss) ++ t =
      s ++ (if ss.isEmpty then t else ',' :: (commaSeparated ss ++ t)) := by
  cases ss <;> simp [commaSeparated]

/-- Values between commas and before the closing character show where the last
one ends. -/
theorem SelfDelimiting.commaSeparated_inj {α : Type} {write : α → Text}
    {close : Char} (h : SelfDelimiting write close) {xs ys : List α}
    {t u : Text} (eq : commaSeparated (xs.map write) ++ close :: t =
      commaSeparated (ys.map write) ++ close :: u) : xs = ys ∧ t = u := by
  induction xs generalizing ys with
  | nil =>
    cases ys with
    | nil => simpa [commaSeparated] using eq
    | cons y ys =>
      rw [List.map_cons, commaSeparated_cons_append] at eq
      exact absurd eq.symm (h.start y _ _)
  | cons x xs ih =>
    cases ys with
    | nil =>
      rw [List.map_cons, commaSeparated_cons_append] at eq
      exact absurd eq (h.start x _ _)
    | cons y ys =>
      rw [List.map_cons, List.map_cons, commaSeparated_cons_append,
        commaSeparated_cons_append] at eq
      obtain ⟨rfl, rest⟩ := h.inj _ _ _ _ eq
      -- What follows the first value is the closing character on both sides, or
      -- a comma on both.
      cases xs with
      | nil =>
        cases ys with
        | nil => simpa using rest
        | cons y' ys => simp [h.comma] at rest
      | cons x' xs =>
        cases ys with
        | nil => simp [Ne.symm h.comma] at rest
        | cons y' ys =>
          obtain ⟨tails, ends⟩ := ih (List.cons.inj rest).2
          exact ⟨congrArg _ tails, ends⟩

theorem selfDelimiting_quote : SelfDelimiting quote ']' where
  comma := by decide
  start s t u h := by simp [quote] at h
  inj s s' t t' := quote_append_inj

theorem quotedArray_append (ss : List Text) (t : Text) :
    quotedArray ss ++ t =
      '[' :: (commaSeparated (ss.map quote) ++ ']' :: t) := by
  simp [quotedArray]

/-- An array of quoted texts shows where it ends. -/
theorem quotedArray_append_inj {ss ss' : List Text} {t t' : Text}
    (h : quotedArray ss ++ t = quotedArray ss' ++ t') : ss = ss' ∧ t = t' := by
  rw [quotedArray_append, quotedArray_append, List.cons.injEq] at h
  exact selfDelimiting_quote.commaSeparated_inj h.2

theorem selfDelimiting_field :
    SelfDelimiting
      (fun field : Text × List Text =>
        quote field.1 ++ ':' :: quotedArray field.2) '}' where
  comma := by decide
  start field t u h := by simp [quote] at h
  inj field field' t t' h := by
    simp only [List.append_assoc, List.cons_append] at h
    obtain ⟨keys, rest⟩ := quote_append_inj h
    obtain ⟨arrays, ends⟩ := quotedArray_append_inj (List.cons.inj rest).2
    exact ⟨Prod.ext keys arrays, ends⟩

/-- An object of arrays of texts is written by its fields only. -/
theorem quotedObject_inj {fields fields' : List (Text × List Text)}
    (h : quotedObject fields = quotedObject fields') : fields = fields' :=
  (selfDelimiting_field.commaSeparated_inj (List.cons.inj h).2).1

end Worksheet.Json

import Mathlib.Data.List.Basic
import Worksheet.Proofs.Markup.Plain
import Worksheet.Result.Block

/-!
# Names that plain lines open

Showing a plain line changes its blanks and its minus signs only, and none of
them stands in a name or is an equals sign. The line therefore opens the same
name before and after.
-/

namespace Worksheet

open Text Markup

theorem not_isBlank_of_isNameChar {c : Char} (h : isNameChar c = true) :
    isBlank c = false := by
  rw [← Bool.not_eq_true]
  intro blank
  rw [isNameChar, not_isAlphanumeric_of_isBlank blank] at h
  have mark : (c == '_' || c == '′' || c == '″') = false :=
    eq_of_isBlank (f := fun c => c == '_' || c == '′' || c == '″')
      (by decide) blank
  simp_all

theorem takeName?_of_head {s : Text} (h : s.head?.any isNameChar = false) :
    takeName? s = none := by
  cases s with
  | nil => rfl
  | cons c s =>
    have start : isNameStart c = false := by
      rw [← Bool.not_eq_true]
      intro start
      rw [List.head?_cons, Option.any_some,
        isNameChar_of_isNameStart start] at h
      cases h
    simp [takeName?, start]

/-- A way to show texts that keeps what a line opens: the margin in front, the
characters of names, and the places of the equals signs. -/
structure KeepsOpenings (D : Text → Prop) (T : Text → Text) : Prop where
  suffix : ∀ {s t}, t <:+ s → D s → D t
  trimStart : ∀ {s}, D s → trimStart (T s) = T (trimStart s)
  word : ∀ {c s}, D (c :: s) → isNameChar c = true → T (c :: s) = c :: T s
  other : ∀ {s}, D s → s.head?.any isNameChar = false →
    (T s).head?.any isNameChar = false
  equals : ∀ {s}, D s → ((T s).head? = some '=' ↔ s.head? = some '=')
  cut : ∀ {s}, D ('=' :: s) → T ('=' :: s) = '=' :: T s

namespace KeepsOpenings

variable {D : Text → Prop} {T : Text → Text} {s : Text}

theorem run (keeps : KeepsOpenings D T) (h : D s) :
    (T s).takeWhile isNameChar = s.takeWhile isNameChar ∧
      (T s).dropWhile isNameChar = T (s.dropWhile isNameChar) := by
  have stop {t : Text} (ht : t.head?.any isNameChar = false) :
      t.takeWhile isNameChar = [] ∧ t.dropWhile isNameChar = t := by
    cases t <;> simp_all
  induction s with
  | nil =>
    have ends := stop (keeps.other h rfl)
    exact ends
  | cons c s ih =>
    cases hc : isNameChar c with
    | true =>
      obtain ⟨same, rest⟩ := ih (keeps.suffix (List.suffix_cons c s) h)
      rw [keeps.word h hc]
      simp [hc, same, rest]
    | false =>
      obtain ⟨none, all⟩ := stop (keeps.other h (by simpa using hc))
      rw [none, all]
      simp [hc]

theorem takeName?_eq (keeps : KeepsOpenings D T) (h : D s) :
    takeName? (T s) = (takeName? s).map fun (name, rest) => (name, T rest) := by
  cases first : s.head?.any isNameChar with
  | false =>
    rw [takeName?_of_head first, takeName?_of_head (keeps.other h first)]; rfl
  | true =>
    cases s with
    | nil => cases first
    | cons c s =>
      obtain ⟨same, rest⟩ := keeps.run (keeps.suffix (List.suffix_cons c s) h)
      rw [keeps.word h first, takeName?, takeName?, same, rest]
      split <;> rfl

/-- The name that is opened is the same. -/
theorem openingName?_eq (keeps : KeepsOpenings D T) (h : D s) :
    openingName? (T s) = openingName? s := by
  have start := keeps.suffix (trimStart_isSuffix s) h
  rw [openingName?, openingName?, keeps.trimStart h, keeps.takeName?_eq start]
  cases hname : takeName? (Text.trimStart s) with
  | none => rfl
  | some found =>
    obtain ⟨name, rest⟩ := found
    have left : rest <:+ Text.trimStart s := ⟨name, (takeName?_join hname).1⟩
    have after := keeps.suffix left start
    have behind := keeps.suffix (trimStart_isSuffix rest) after
    simp only [Option.map_some, keeps.trimStart after]
    generalize Text.trimStart rest = t at behind
    by_cases sign : t.head? = some '='
    · obtain ⟨t, rfl⟩ : ∃ t', t = '=' :: t' := by
        cases t with
        | nil => cases sign
        | cons c t => exact ⟨t, by rw [Option.some.inj sign]⟩
      rw [keeps.cut behind]
      have alone := keeps.equals (keeps.suffix (List.suffix_cons '=' t) behind)
      simp only [beq_iff_eq, alone]
    · have sign' := mt (keeps.equals behind).1 sign
      split
      · next hT => exact absurd (by rw [hT]; rfl) sign'
      · split
        · exact absurd rfl sign
        · rfl

end KeepsOpenings

/-! ## What is shown -/

theorem keepsOpenings_shownChar :
    KeepsOpenings (fun _ => True) (List.map shownChar) where
  suffix _ _ := trivial
  trimStart := by
    intro s _
    have same : isBlank ∘ shownChar = isBlank := by
      funext c
      rw [Function.comp_apply, shownChar]
      split
      · next hc =>
        have minus : isBlank '−' = false := by decide +kernel
        rw [hc, minus]
        decide
      · rfl
    rw [Text.trimStart, List.dropWhile_map, same]
    rfl
  word := by
    intro c s _ hc
    have apart : c ≠ '−' := by
      rintro rfl
      exact absurd hc (by decide +kernel)
    rw [List.map_cons, shownChar, if_neg apart]
  other := by
    rintro (_ | ⟨c, s⟩) - h
    · rfl
    · rw [List.map_cons, List.head?_cons, Option.any_some, shownChar]
      split
      · decide
      · exact h
  equals := by
    rintro (_ | ⟨c, s⟩) -
    · rfl
    · rw [List.map_cons, List.head?_cons, List.head?_cons, shownChar]
      split
      · next hc => rw [hc]; decide
      · rfl
  cut _ := rfl

/-- The first character of a normal form is a space or the first one of the
text. -/
theorem head?_normalize {c : Char} {s : Text} (h : PlainLine (c :: s)) :
    (normalize (c :: s)).head? = some (if isBlank c then ' ' else c) := by
  rw [Text.normalize]
  cases blank : isBlank c with
  | true =>
    exact congrArg List.head? (normalizeFrom_blank h.tail.1 blank false s)
  | false =>
    exact congrArg List.head? (normalizeFrom_shown h.tail.1 blank false s)

theorem keepsOpenings_normalize : KeepsOpenings PlainLine normalize where
  suffix := by
    rintro s t ⟨front, rfl⟩ h
    exact h.of_append.2
  trimStart h := trimStart_normalizeFrom h false
  word h hc :=
    normalizeFrom_shown h.tail.1 (not_isBlank_of_isNameChar hc) false _
  other := by
    rintro (_ | ⟨c, s⟩) h hc
    · rfl
    · rw [head?_normalize h, Option.any_some]
      split
      · decide
      · exact hc
  equals := by
    rintro (_ | ⟨c, s⟩) h
    · rfl
    · rw [head?_normalize h]
      split
      · next blank =>
        simp only [List.head?_cons, Option.some.injEq]
        constructor
        · intro space
          exact absurd space (by decide)
        · rintro rfl
          exact absurd blank (by decide)
      · rfl
  cut h := normalizeFrom_shown h.tail.1 (by decide) false _

theorem head?_trimEnd (s : Text) :
    (trimEnd s).head? = none ∨ (trimEnd s).head? = s.head? := by
  obtain ⟨q, join⟩ := trimEnd_isPrefix s
  cases h : trimEnd s with
  | nil => exact .inl rfl
  | cons c t =>
    rw [h] at join
    exact .inr (by rw [← join]; rfl)

theorem keepsOpenings_trimEnd : KeepsOpenings (fun _ => True) trimEnd where
  suffix _ _ := trivial
  trimStart _ := trimStart_trimEnd _
  word _ hc := trimEnd_cons_of_shown (not_isBlank_of_isNameChar hc) _
  other := by
    intro s _ hc
    rcases head?_trimEnd s with none | same
    · rw [none]
      rfl
    · rwa [same]
  equals := by
    intro s _
    constructor
    · intro sign
      rcases head?_trimEnd s with none | same
      · rw [none] at sign
        cases sign
      · rwa [← same]
    · intro sign
      cases s with
      | nil => cases sign
      | cons c s =>
        obtain rfl : c = '=' := Option.some.inj sign
        rw [trimEnd_cons_of_shown (by decide)]
        rfl
  cut _ := trimEnd_cons_of_shown (by decide) _

theorem openingName?_trimStart (s : Text) :
    openingName? (trimStart s) = openingName? s := by
  rw [openingName?, openingName?, trimStart_trimStart]

theorem openingName?_trimEnd (s : Text) :
    openingName? (trimEnd s) = openingName? s :=
  keepsOpenings_trimEnd.openingName?_eq trivial

/-- A plain line opens what its text opens. -/
theorem openingName?_ofMarkup {line : Text} (h : PlainLine line) :
    openingName? (RenderedLine.ofMarkup line).text = openingName? line := by
  have shown : PlainLine (line.map shownChar) := by
    intro c hc
    obtain ⟨d, hd, rfl⟩ := List.mem_map.1 hc
    rw [shownChar]
    split
    · decide
    · exact h d hd
  rw [RenderedLine.ofMarkup, meaning_of_untagged (untagged_of_plain h), trim,
    openingName?_trimEnd, openingName?_trimStart,
    keepsOpenings_normalize.openingName?_eq shown,
    keepsOpenings_shownChar.openingName?_eq trivial]

end Worksheet

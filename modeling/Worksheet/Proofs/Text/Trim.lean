import Mathlib.Data.List.Basic
import Worksheet.Text.Numeral
import Worksheet.Text.Trim

/-!
# Margins of a text

A core is trimmed when it neither begins nor ends with a blank. Such a core, not
empty and between blanks, is what trimming finds, and the blanks are the
margins.
-/

namespace Worksheet.Text

/-- The text neither begins nor ends with a blank. -/
structure Trimmed (s : Text) : Prop where
  head : s.head?.any isBlank = false
  last : s.getLast?.any isBlank = false

theorem Trimmed.of_not_isBlank {s : Text} (h : ∀ c ∈ s, isBlank c = false) :
    Trimmed s := by
  constructor
  · cases hs : s.head? with
    | none => rfl
    | some c => exact h c (List.mem_of_mem_head? hs)
  · cases hs : s.getLast? with
    | none => rfl
    | some c => exact h c (List.mem_of_mem_getLast? hs)

theorem bne_of_not_mem {c : Char} {s : Text} (h : c ∉ s) :
    ∀ d ∈ s, (d != c) = true := by
  intro d hd
  rw [bne_iff_ne]
  rintro rfl
  exact h hd

theorem isBlank_of_mem {s : Text} (h : isAllBlank s = true) :
    ∀ c ∈ s, isBlank c = true :=
  List.all_eq_true.1 h

/-- A property of the blank characters can be checked on their codes. -/
theorem eq_of_isBlank {f : Char → Bool} {b : Bool}
    (h : ∀ r ∈ blankRanges, ∀ n ∈ List.range' r.1 (r.2 + 1 - r.1),
      f (Char.ofNat n) = b) {c : Char}
    (hc : isBlank c = true) : f c = b := by
  obtain ⟨r, hr, low, high⟩ := inRanges_iff.1 hc
  have code : c.toNat ∈ List.range' r.1 (r.2 + 1 - r.1) :=
    List.mem_range'_1.2 ⟨low, by omega⟩
  have checked := h r hr c.toNat code
  rwa [Char.ofNat_toNat] at checked

theorem not_isAlphanumeric_of_isBlank {c : Char} (h : isBlank c = true) :
    isAlphanumeric c = false :=
  eq_of_isBlank (by decide +kernel) h

theorem isAllBlank_leading (s : Text) : isAllBlank (leading s) = true :=
  List.all_takeWhile

theorem isAllBlank_takeEndWhile (s : Text) :
    isAllBlank (takeEndWhile isBlank s) = true := by
  rw [isAllBlank, takeEndWhile, List.all_reverse]
  exact List.all_takeWhile

theorem isAllBlank_trailing (s : Text) : isAllBlank (trailing s) = true :=
  isAllBlank_takeEndWhile (trimStart s)

theorem head?_dropWhile_any (p : Char → Bool) (s : Text) :
    (s.dropWhile p).head?.any p = false := by
  induction s with
  | nil => rfl
  | cons c s ih =>
    rw [List.dropWhile_cons]
    split
    · exact ih
    · next h => simpa using h

/-- What is left after dropping from the end does not end in what was
dropped. -/
theorem getLast?_dropEndWhile_any (p : Char → Bool) (s : Text) :
    (dropEndWhile p s).getLast?.any p = false := by
  rw [dropEndWhile, List.getLast?_reverse]
  exact head?_dropWhile_any p _

theorem dropEndWhile_of_last {p : Char → Bool} {s : Text}
    (h : s.getLast?.any p = false) :
    dropEndWhile p s = s := by
  rw [← List.head?_reverse] at h
  cases hs : s.reverse with
  | nil => simp [dropEndWhile, List.reverse_eq_nil_iff.1 hs]
  | cons c t =>
    rw [hs, List.head?_cons, Option.any_some] at h
    rw [dropEndWhile, hs, List.dropWhile_cons_of_neg (by simp [h]), ← hs,
      List.reverse_reverse]

/-- Trimming leaves a trimmed text. -/
theorem trimmed_trim (s : Text) : Trimmed (trim s) := by
  constructor
  · have join := dropEndWhile_append_takeEndWhile isBlank (trimStart s)
    have head : (trimStart s).head?.any isBlank = false :=
      head?_dropWhile_any isBlank s
    rw [← trimEnd, ← trim] at join
    rw [← join] at head
    cases h : trim s with
    | nil => rfl
    | cons c core => simpa [h] using head
  · rw [trim, trimEnd, dropEndWhile, List.getLast?_reverse]
    exact head?_dropWhile_any isBlank _

theorem leading_append {p s : Text} (hp : isAllBlank p = true)
    (hs : s.head?.any isBlank = false) :
    leading (p ++ s) = p := by
  rw [leading, List.takeWhile_append_of_pos (isBlank_of_mem hp)]
  cases s with
  | nil => simp
  | cons c s => simp_all

theorem trimStart_append {p s : Text} (hp : isAllBlank p = true)
    (hs : s.head?.any isBlank = false) : trimStart (p ++ s) = s := by
  rw [trimStart, List.dropWhile_append_of_pos (isBlank_of_mem hp)]
  cases s with
  | nil => rfl
  | cons c s => simp_all

theorem dropEndWhile_cons (p : Char → Bool) (c : Char) (s : Text) :
    dropEndWhile p (c :: s) =
      if (dropEndWhile p s).isEmpty then if p c then [] else [c]
      else c :: dropEndWhile p s := by
  rw [dropEndWhile, List.reverse_cons, List.dropWhile_append, dropEndWhile,
    List.isEmpty_reverse]
  split
  · rw [List.dropWhile_cons]
    split <;> rfl
  · simp

theorem trimEnd_cons_of_shown {c : Char} (h : isBlank c = false) (s : Text) :
    trimEnd (c :: s) = c :: trimEnd s := by
  rw [trimEnd, dropEndWhile_cons, trimEnd]
  split
  · next nil => rw [List.isEmpty_iff.1 nil, h]; rfl
  · rfl

theorem trimEnd_append_cons {c : Char} (h : isBlank c = false) (s t : Text) :
    trimEnd (s ++ c :: t) = s ++ c :: trimEnd t := by
  induction s with
  | nil => exact trimEnd_cons_of_shown h t
  | cons d s ih =>
    rw [List.cons_append, trimEnd, dropEndWhile_cons, ← trimEnd, ih]
    simp

theorem trimStart_append_cons {c : Char} (h : isBlank c = false) (s t : Text) :
    trimStart (s ++ c :: t) = trimStart s ++ c :: t := by
  induction s with
  | nil => simp [trimStart, h]
  | cons d s ih =>
    rw [List.cons_append]
    unfold trimStart at ih ⊢
    rw [List.dropWhile_cons, List.dropWhile_cons]
    split
    · exact ih
    · rfl

theorem trim_append_cons {c : Char} (h : isBlank c = false) (s t : Text) :
    trim (s ++ c :: t) = trimStart s ++ c :: trimEnd t := by
  rw [trim, trimStart_append_cons h, trimEnd_append_cons h]

theorem trimStart_trimEnd (s : Text) :
    trimStart (trimEnd s) = trimEnd (trimStart s) := by
  induction s with
  | nil => rfl
  | cons c s ih =>
    cases blank : isBlank c with
    | true =>
      have skip (t : Text) : trimStart (c :: t) = trimStart t := by
        simp [trimStart, blank]
      rw [skip, trimEnd, dropEndWhile_cons, ← trimEnd, ← ih]
      split
      · next nil => rw [List.isEmpty_iff.1 nil]
      · exact skip _
    | false =>
      have stay (t : Text) : trimStart (c :: t) = c :: t := by
        simp [trimStart, blank]
      rw [stay, trimEnd_cons_of_shown blank, stay]

theorem trimEnd_isPrefix (s : Text) : trimEnd s <+: s :=
  ⟨takeEndWhile isBlank s, dropEndWhile_append_takeEndWhile isBlank s⟩

theorem trimStart_isSuffix (s : Text) : trimStart s <:+ s :=
  List.dropWhile_suffix isBlank

/-- Blanks at the end do not count. -/
theorem trimEnd_append_of_isAllBlank {q : Text} (hq : isAllBlank q = true)
    (s : Text) :
    trimEnd (s ++ q) = trimEnd s := by
  have reversed : ∀ c ∈ q.reverse, isBlank c = true := fun c hc =>
    isBlank_of_mem hq c (List.mem_reverse.1 hc)
  rw [trimEnd, trimEnd, dropEndWhile, dropEndWhile, List.reverse_append,
    List.dropWhile_append_of_pos reversed]

theorem trim_eq_trimStart_trimEnd (s : Text) : trim s = trimStart (trimEnd s) :=
  (trimStart_trimEnd s).symm

theorem trim_append_of_isAllBlank {q : Text} (hq : isAllBlank q = true)
    (s : Text) :
    trim (s ++ q) = trim s := by
  rw [trim_eq_trimStart_trimEnd, trimEnd_append_of_isAllBlank hq,
    ← trim_eq_trimStart_trimEnd]

theorem trimStart_trimStart (s : Text) :
    trimStart (trimStart s) = trimStart s :=
  trimStart_append (p := []) rfl (head?_dropWhile_any isBlank s)

theorem takeEndWhile_append {s q : Text} (hq : isAllBlank q = true)
    (hs : s.getLast?.any isBlank = false) :
    takeEndWhile isBlank (s ++ q) = q := by
  have reversed : isAllBlank q.reverse = true := by
    rwa [isAllBlank, List.all_reverse]
  rw [← List.head?_reverse] at hs
  have front := leading_append reversed hs
  rw [leading] at front
  rw [takeEndWhile, List.reverse_append, front, List.reverse_reverse]

theorem dropEndWhile_append {s q : Text} (hq : isAllBlank q = true)
    (hs : s.getLast?.any isBlank = false) :
    dropEndWhile isBlank (s ++ q) = s := by
  have reversed : isAllBlank q.reverse = true := by
    rwa [isAllBlank, List.all_reverse]
  rw [← List.head?_reverse] at hs
  have front := trimStart_append reversed hs
  rw [trimStart] at front
  rw [dropEndWhile, List.reverse_append, front, List.reverse_reverse]

theorem Trimmed.head_append {core : Text} (trimmed : Trimmed core)
    (ne : core ≠ []) (t : Text) :
    (core ++ t).head?.any isBlank = false := by
  cases core with
  | nil => exact absurd rfl ne
  | cons c core => exact trimmed.head

/-- Whether a text is trimmed depends on its ends alone. -/
theorem Trimmed.replace {front middle back : Text}
    (trimmed : Trimmed (front ++ (middle ++ back))) (hfront : front ≠ [])
    (hback : back ≠ []) (middle' : Text) :
    Trimmed (front ++ (middle' ++ back)) := by
  have last (m : Text) : (front ++ (m ++ back)).getLast? = back.getLast? := by
    rw [List.getLast?_append_of_ne_nil _ (by simp [hback]),
      List.getLast?_append_of_ne_nil _ hback]
  constructor
  · have head := trimmed.head
    cases front with
    | nil => exact absurd rfl hfront
    | cons c front => exact head
  · rw [last, ← last middle]
    exact trimmed.last

section

variable {p core q : Text} (hp : isAllBlank p = true) (hq : isAllBlank q = true)
  (trimmed : Trimmed core) (ne : core ≠ [])

include hp trimmed ne

theorem leading_between (q : Text) : leading (p ++ (core ++ q)) = p :=
  leading_append hp (trimmed.head_append ne q)

theorem trimStart_between (q : Text) :
    trimStart (p ++ (core ++ q)) = core ++ q :=
  trimStart_append hp (trimmed.head_append ne q)

include hq

theorem trim_between : trim (p ++ (core ++ q)) = core := by
  rw [trim, trimStart_between hp trimmed ne, trimEnd,
    dropEndWhile_append hq trimmed.last]

theorem trailing_between : trailing (p ++ (core ++ q)) = q := by
  rw [trailing, trimStart_between hp trimmed ne,
    takeEndWhile_append hq trimmed.last]

end

end Worksheet.Text

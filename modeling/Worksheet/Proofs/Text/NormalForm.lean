import Mathlib.Data.List.Basic
import Worksheet.Proofs.Text.Trim
import Worksheet.Text.NormalForm

/-!
# Normalising part by part

The normal form of a text is put together from the normal forms of its
parts where the text is cut at a character that is shown, and its first row
is the normal form of what stands before the first line break.
-/

namespace Worksheet.Text

theorem isBlank_of_isLineBreak {c : Char} (h : isLineBreak c = true) :
    isBlank c = true := by
  simp only [isLineBreak, Bool.or_eq_true, beq_iff_eq] at h
  rcases h with (((rfl | rfl) | rfl) | rfl) | rfl <;> decide +kernel

theorem not_isLineBreak_of_not_isBlank {c : Char} (h : isBlank c = false) :
    isLineBreak c = false := by
  rw [← Bool.not_eq_true]
  intro break'
  rw [isBlank_of_isLineBreak break'] at h
  cases h

/-- The character that stands for a character that is not blank. -/
def plainEquals (c : Char) : Char := if c = '＝' then '=' else c

theorem plainEquals_eq_iff {c : Char} :
    plainEquals c = '=' ↔ c = '=' ∨ c = '＝' := by
  rw [plainEquals]
  split
  · next h => simp [h]
  · next h => simp [h]

theorem normalizeFrom_return_feed (inRun : Bool) (s : Text) :
    normalizeFrom inRun ('\r' :: '\n' :: s) = '\n' :: normalize s := rfl

section

variable {c : Char} {s : Text} (h : c = '\r' → s.head? ≠ some '\n')
  (inRun : Bool)

include h

theorem normalizeFrom_cons_of_alone :
    normalizeFrom inRun (c :: s) =
      if isLineBreak c then '\n' :: normalize s
      else if isBlank c then
        if inRun then normalizeFrom true s else ' ' :: normalizeFrom true s
      else plainEquals c :: normalize s := by
  rw [normalizeFrom.eq_def]
  split
  · next heq => cases heq
  · next heq =>
    obtain ⟨rfl, rfl⟩ := List.cons.inj heq
    exact absurd rfl (h rfl)
  · next heq =>
    obtain ⟨rfl, rfl⟩ := List.cons.inj heq
    simp only [plainEquals, normalize]
    split
    · rfl
    · split
      · rfl
      · split <;> rfl

end

theorem normalizeFrom_break {c : Char} {s : Text} (h : isLineBreak c = true)
    (alone : c = '\r' → s.head? ≠ some '\n') (inRun : Bool) :
    normalizeFrom inRun (c :: s) = '\n' :: normalize s := by
  rw [normalizeFrom_cons_of_alone alone, if_pos h]

theorem normalizeFrom_gap_cons {c : Char} (blank : isBlank c = true)
    (h : isLineBreak c = false) (inRun : Bool) (s : Text) :
    normalizeFrom inRun (c :: s) =
      if inRun then normalizeFrom true s else ' ' :: normalizeFrom true s := by
  have alone : c = '\r' → s.head? ≠ some '\n' := by
    rintro rfl
    cases h
  rw [normalizeFrom_cons_of_alone alone, if_neg (by simp [h]), if_pos blank]

theorem normalizeFrom_mark {c : Char} (shown : isBlank c = false) (inRun : Bool)
    (s : Text) :
    normalizeFrom inRun (c :: s) = plainEquals c :: normalize s := by
  have unbroken := not_isLineBreak_of_not_isBlank shown
  have alone : c = '\r' → s.head? ≠ some '\n' := by
    rintro rfl
    cases unbroken
  rw [normalizeFrom_cons_of_alone alone, if_neg (by simp [unbroken]),
    if_neg (by simp [shown])]

/-- Induction along the characters that are normalised together. -/
@[elab_as_elim]
theorem normalForm_induction {motive : Text → Prop} (nil : motive [])
    (returnFeed : ∀ s, motive s → motive ('\r' :: '\n' :: s))
    (lineBreak : ∀ c s, isLineBreak c = true →
      (c = '\r' → s.head? ≠ some '\n') → motive s →
      motive (c :: s))
    (gap : ∀ c s, isBlank c = true → isLineBreak c = false → motive s →
      motive (c :: s))
    (mark : ∀ c s, isBlank c = false → motive s → motive (c :: s)) (s : Text) :
    motive s := by
  have apart {c : Char} {s : Text} (h : ∀ t, c = '\r' → s = '\n' :: t → False) :
      c = '\r' → s.head? ≠ some '\n' := by
    intro hc feed
    obtain ⟨t, ht⟩ := List.head?_eq_some_iff.1 feed
    exact h t hc ht
  fun_induction normalizeFrom false s with
  | case1 => exact nil
  | case2 _ s ih => exact returnFeed s ih
  | case3 _ c s alone hbreak ih => exact lineBreak c s hbreak (apart alone) ih
  | case4 c s _ unbroken blank ih =>
    exact gap c s blank (by simpa using unbroken) ih
  | case5 _ c s _ unbroken blank _ ih =>
    exact gap c s blank (by simpa using unbroken) ih
  | case6 _ s _ _ shown ih => exact mark _ s (by simpa using shown) ih
  | case7 _ c s _ _ shown _ ih => exact mark c s (by simpa using shown) ih

/-! ## Cutting at a character that is shown -/

theorem normalizeFrom_append_mark {c : Char} (shown : isBlank c = false)
    (inRun : Bool) (s t : Text) :
    normalizeFrom inRun (s ++ c :: t) =
      normalizeFrom inRun s ++ plainEquals c :: normalize t := by
  induction s using normalForm_induction generalizing inRun with
  | nil => exact normalizeFrom_mark shown inRun t
  | returnFeed s ih => exact congrArg ('\n' :: ·) (ih false)
  | lineBreak d s hbreak alone ih =>
    have alone' : d = '\r' → (s ++ c :: t).head? ≠ some '\n' := by
      intro hd
      cases s with
      | nil =>
        rintro ⟨rfl⟩
        exact absurd shown (by decide)
      | cons e s => exact alone hd
    rw [normalizeFrom_break hbreak alone, List.cons_append,
      normalizeFrom_break hbreak alone', List.cons_append, normalize, ih]
    rfl
  | gap d s blank unbroken ih =>
    rw [normalizeFrom_gap_cons blank unbroken, List.cons_append,
      normalizeFrom_gap_cons blank unbroken]
    split
    · exact ih true
    · rw [ih true, List.cons_append]
  | mark d s shown' ih =>
    rw [normalizeFrom_mark shown', List.cons_append, normalizeFrom_mark shown',
      normalize, ih, List.cons_append]
    rfl

/-- The characters of a normal form are line feeds, spaces, and those that stand
for the shown characters of the text. -/
theorem mem_normalizeFrom_cases {s : Text} {inRun : Bool} {c : Char}
    (h : c ∈ normalizeFrom inRun s) :
    c = '\n' ∨ c = ' ' ∨ ∃ d ∈ s, isBlank d = false ∧ c = plainEquals d := by
  have later {d : Char} {s : Text}
      (found : c = '\n' ∨ c = ' ' ∨ ∃ d ∈ s, isBlank d = false ∧
        c = plainEquals d) :
      c = '\n' ∨ c = ' ' ∨ ∃ e ∈ d :: s, isBlank e = false ∧
        c = plainEquals e := by
    rcases found with feed | space | ⟨e, he, shown⟩
    · exact .inl feed
    · exact .inr (.inl space)
    · exact .inr (.inr ⟨e, List.mem_cons_of_mem d he, shown⟩)
  induction s using normalForm_induction generalizing inRun with
  | nil => cases h
  | returnFeed s ih =>
    rw [normalizeFrom_return_feed] at h
    exact (List.mem_cons.1 h).elim .inl fun h => later (later (ih h))
  | lineBreak d s hbreak alone ih =>
    rw [normalizeFrom_break hbreak alone] at h
    exact (List.mem_cons.1 h).elim .inl fun h => later (ih h)
  | gap d s blank unbroken ih =>
    rw [normalizeFrom_gap_cons blank unbroken] at h
    split at h
    · exact later (ih h)
    · exact (List.mem_cons.1 h).elim (fun space => .inr (.inl space)) fun h =>
        later (ih h)
  | mark d s shown ih =>
    rw [normalizeFrom_mark shown] at h
    rcases List.mem_cons.1 h with eq | h
    · exact .inr (.inr ⟨d, List.mem_cons_self, shown, eq⟩)
    · exact later (ih h)

/-- An equals sign of the normal form stands for one of the text. -/
theorem exists_of_equals_mem {s : Text} {inRun : Bool}
    (h : '=' ∈ normalizeFrom inRun s) :
    ∃ c ∈ s, plainEquals c = '=' := by
  rcases mem_normalizeFrom_cases h with feed | space | ⟨d, hd, -, eq⟩
  · exact absurd feed (by decide)
  · exact absurd space (by decide)
  · exact ⟨d, hd, eq.symm⟩

/-! ## The first row -/

/-- Only a line break becomes a line feed. -/
theorem plainEquals_ne_feed {c : Char} (shown : isBlank c = false) :
    plainEquals c ≠ '\n' := by
  rw [plainEquals]
  split
  · decide
  · rintro rfl
    exact absurd shown (by decide)

/-- The first row of a normal form comes from what stands before the first line
break. -/
theorem takeWhile_normalizeFrom (inRun : Bool) (s : Text) :
    (normalizeFrom inRun s).takeWhile (· != '\n') =
      normalizeFrom inRun (s.takeWhile (!isLineBreak ·)) := by
  induction s using normalForm_induction generalizing inRun with
  | nil => rfl
  | returnFeed s ih => rfl
  | lineBreak c s hbreak alone ih =>
    rw [normalizeFrom_break hbreak alone, List.takeWhile_cons_of_neg (by simp),
      List.takeWhile_cons_of_neg (by simp [hbreak])]
    rfl
  | gap c s blank unbroken ih =>
    rw [List.takeWhile_cons_of_pos (by simp [unbroken]),
      normalizeFrom_gap_cons blank unbroken,
      normalizeFrom_gap_cons blank unbroken]
    split
    · exact ih true
    · rw [List.takeWhile_cons_of_pos (by decide), ih true]
  | mark c s shown ih =>
    rw [List.takeWhile_cons_of_pos
        (by simp [not_isLineBreak_of_not_isBlank shown]),
      normalizeFrom_mark shown, normalizeFrom_mark shown,
      List.takeWhile_cons_of_pos (by simp [plainEquals_ne_feed shown]),
      normalize, ih]
    rfl

/-- A text without line breaks. -/
def Unbroken (s : Text) : Prop := ∀ c ∈ s, isLineBreak c = false

theorem Unbroken.feed_not_mem {s : Text} (h : Unbroken s) (inRun : Bool) :
    '\n' ∉ normalizeFrom inRun s := by
  have whole : s.takeWhile (!isLineBreak ·) = s := by
    have shown : ∀ c ∈ s, (!isLineBreak c) = true :=
      fun c hc => by simp [h c hc]
    rw [← List.append_nil s, List.takeWhile_append_of_pos shown,
      List.takeWhile_nil]
  have row := takeWhile_normalizeFrom inRun s
  rw [whole] at row
  intro feed
  rw [← row] at feed
  exact absurd (List.all_eq_true.1 List.all_takeWhile _ feed) (by decide)

/-- A line feed at the end is kept. -/
theorem Unbroken.normalizeFrom_feed {s : Text} (h : Unbroken s) (inRun : Bool) :
    normalizeFrom inRun (s ++ ['\n']) = normalizeFrom inRun s ++ ['\n'] := by
  induction s generalizing inRun with
  | nil => rfl
  | cons c s ih =>
    have unbroken := h c List.mem_cons_self
    have rest : Unbroken s := fun d hd => h d (List.mem_cons_of_mem c hd)
    cases blank : isBlank c with
    | true =>
      rw [List.cons_append, normalizeFrom_gap_cons blank unbroken,
        normalizeFrom_gap_cons blank unbroken]
      split
      · exact ih rest true
      · rw [ih rest true, List.cons_append]
    | false =>
      rw [List.cons_append, normalizeFrom_mark blank, normalizeFrom_mark blank,
        normalize, ih rest false]
      rfl

end Worksheet.Text

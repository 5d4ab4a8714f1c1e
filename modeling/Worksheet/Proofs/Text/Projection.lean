import Mathlib.Data.List.Basic
import Worksheet.Proofs.Text.NormalForm

/-!
# Normalising is a projection

Normalising leads to the normal form and keeps a text that has it. What it may
change is told by what it keeps: the characters that are shown, which of them
stand side by side, and the number of line breaks.
-/

namespace Worksheet.Text

/-- The shown characters of a text, each with whether the character right after
it is shown, too. -/
def marks : Text → List (Char × Bool)
  | [] => []
  | c :: s =>
    if isBlank c then marks s else (c, s.head?.any (!isBlank ·)) :: marks s

/-- For each shown character, whether another one stands right after it. -/
def joints (s : Text) : List Bool := (marks s).map Prod.snd

/-- How often a line feed stands right after a carriage return. -/
def returnFeeds (s : Text) : Nat := (s.zip s.tail).count ('\r', '\n')

/-- The number of line breaks, where a carriage return and the line feed after
it make up one. -/
def lineBreaks (s : Text) : Nat := s.countP isLineBreak - returnFeeds s

/-! ## The normal form is reached -/

theorem isBlank_plainEquals (c : Char) :
    isBlank (plainEquals c) = isBlank c := by
  rw [plainEquals]
  split
  · next h =>
    rw [h]
    decide +kernel
  · rfl

theorem plainEquals_ne (c : Char) : plainEquals c ≠ '＝' := by
  rw [plainEquals]
  split
  · decide
  · assumption

/-- Inside a run of blanks no further space is written at the front. -/
theorem head?_normalizeFrom_true (s : Text) :
    (normalizeFrom true s).head? ≠ some ' ' := by
  induction s using normalForm_induction with
  | nil => simp [normalizeFrom]
  | returnFeed s ih => simp [normalizeFrom_return_feed]
  | lineBreak c s hbreak alone ih => simp [normalizeFrom_break hbreak alone]
  | gap c s blank unbroken ih =>
    rw [normalizeFrom_gap_cons blank unbroken, if_pos rfl]
    exact ih
  | mark c s shown ih =>
    rw [normalizeFrom_mark shown]
    intro space
    rw [← isBlank_plainEquals, Option.some.inj space] at shown
    exact absurd shown (by decide)

theorem noDoubleSpace_cons {c : Char} {s : Text} (h : noDoubleSpace s = true)
    (apart : c = ' ' → s.head? ≠ some ' ') : noDoubleSpace (c :: s) = true := by
  rw [noDoubleSpace.eq_def]
  split
  · next heq =>
    obtain ⟨rfl, rfl⟩ := List.cons.inj heq
    exact absurd rfl (apart rfl)
  · next heq =>
    obtain ⟨-, rfl⟩ := List.cons.inj heq
    exact h
  · rfl

theorem noDoubleSpace_normalizeFrom (inRun : Bool) (s : Text) :
    noDoubleSpace (normalizeFrom inRun s) = true := by
  induction s using normalForm_induction generalizing inRun with
  | nil => rfl
  | returnFeed s ih => exact noDoubleSpace_cons (ih false) (by simp)
  | lineBreak c s hbreak alone ih =>
    rw [normalizeFrom_break hbreak alone]
    exact noDoubleSpace_cons (ih false) (by simp)
  | gap c s blank unbroken ih =>
    rw [normalizeFrom_gap_cons blank unbroken]
    split
    · exact ih true
    · exact noDoubleSpace_cons (ih true) fun _ => head?_normalizeFrom_true s
  | mark c s shown ih =>
    rw [normalizeFrom_mark shown]
    refine noDoubleSpace_cons (ih false) ?_
    intro space
    rw [← isBlank_plainEquals, space] at shown
    exact absurd shown (by decide)

theorem isNormal_normalize (s : Text) : IsNormal (normalize s) := by
  constructor
  · intro c hc blank
    rcases mem_normalizeFrom_cases hc with feed | space | ⟨d, -, shown, rfl⟩
    · exact .inr feed
    · exact .inl space
    · rw [isBlank_plainEquals, shown] at blank
      cases blank
  · exact noDoubleSpace_normalizeFrom false s
  · intro mem
    rcases mem_normalizeFrom_cases mem with feed | space | ⟨d, -, -, eq⟩
    · exact absurd feed (by decide)
    · exact absurd space (by decide)
    · exact plainEquals_ne d eq.symm

/-! ## A normal form is kept -/

theorem IsNormal.tail {c : Char} {s : Text} (h : IsNormal (c :: s)) :
    IsNormal s ∧ (c = ' ' → s.head? ≠ some ' ') := by
  obtain ⟨blanks, single, equals⟩ := h
  rw [noDoubleSpace.eq_def] at single
  split at single
  · cases single
  · next heq =>
    obtain ⟨rfl, rfl⟩ := List.cons.inj heq
    refine ⟨⟨fun d hd => blanks d (List.mem_cons_of_mem _ hd), single, ?_⟩, ?_⟩
    · exact fun mem => equals (List.mem_cons_of_mem _ mem)
    · rintro rfl space
      obtain ⟨t, rfl⟩ := List.head?_eq_some_iff.1 space
      simp_all
  · next heq => cases heq

theorem normalizeFrom_of_isNormal {s : Text} (h : IsNormal s) {inRun : Bool}
    (apart : inRun = true → s.head? ≠ some ' ') :
    normalizeFrom inRun s = s := by
  induction s generalizing inRun with
  | nil => rfl
  | cons c s ih =>
    obtain ⟨rest, single⟩ := h.tail
    cases blank : isBlank c with
    | false =>
      have plain : plainEquals c = c :=
        if_neg fun (eq : c = '＝') => h.equals (by simp [eq])
      rw [normalizeFrom_mark blank, plain, normalize, ih rest (by simp)]
    | true =>
      rcases h.blanks c List.mem_cons_self blank with rfl | rfl
      · have outside : inRun = false := by
          cases inRun with
          | false => rfl
          | true => exact absurd rfl (apart rfl)
        rw [normalizeFrom_gap_cons (by decide) (by decide), outside,
          ih rest fun _ => single rfl]
        rfl
      · rw [normalizeFrom_break (by decide) (by simp), normalize,
          ih rest (by simp)]

/-! ## What is kept -/

/-- Outside a run of blanks the front of a text stays shown or blank. -/
theorem head?_normalize_any (s : Text) :
    (normalize s).head?.any (!isBlank ·) = s.head?.any (!isBlank ·) := by
  cases s using normalForm_induction with
  | nil => rfl
  | returnFeed s => rfl
  | lineBreak c s hbreak alone =>
    rw [normalize, normalizeFrom_break hbreak alone]
    simp [isBlank_of_isLineBreak hbreak, (by decide : isBlank '\n' = true)]
  | gap c s blank unbroken =>
    rw [normalize, normalizeFrom_gap_cons blank unbroken]
    simp [blank, (by decide : isBlank ' ' = true)]
  | mark c s shown =>
    rw [normalize, normalizeFrom_mark shown]
    simp [shown, isBlank_plainEquals]

theorem marks_of_isBlank {c : Char} (blank : isBlank c = true) (s : Text) :
    marks (c :: s) = marks s :=
  if_pos blank

theorem marks_of_shown {c : Char} (shown : isBlank c = false) (s : Text) :
    marks (c :: s) = (c, s.head?.any (!isBlank ·)) :: marks s :=
  if_neg (by simp [shown])

theorem map_fst_marks (s : Text) :
    (marks s).map Prod.fst = s.filter (!isBlank ·) := by
  induction s with
  | nil => rfl
  | cons c s ih =>
    cases blank : isBlank c with
    | true =>
      rw [marks_of_isBlank blank, List.filter_cons_of_neg (by simp [blank]), ih]
    | false =>
      rw [marks_of_shown blank, List.filter_cons_of_pos (by simp [blank]),
        List.map_cons, ih]

/-- A shown character is written at its place among the shown ones, and its
neighbour stays shown or blank: between shown characters a run of blanks leaves
a blank. -/
theorem marks_normalizeFrom (inRun : Bool) (s : Text) :
    marks (normalizeFrom inRun s) =
      (marks s).map (Prod.map plainEquals id) := by
  induction s using normalForm_induction generalizing inRun with
  | nil => rfl
  | returnFeed s ih =>
    rw [normalizeFrom_return_feed, marks_of_isBlank (by decide),
      marks_of_isBlank (by decide), marks_of_isBlank (by decide)]
    exact ih false
  | lineBreak c s hbreak alone ih =>
    rw [normalizeFrom_break hbreak alone, marks_of_isBlank (by decide),
      marks_of_isBlank (isBlank_of_isLineBreak hbreak)]
    exact ih false
  | gap c s blank unbroken ih =>
    rw [normalizeFrom_gap_cons blank unbroken, marks_of_isBlank blank]
    split
    · exact ih true
    · rw [marks_of_isBlank (by decide), ih true]
  | mark c s shown ih =>
    rw [normalizeFrom_mark shown, marks_of_shown shown,
      marks_of_shown (by rw [isBlank_plainEquals, shown]), head?_normalize_any]
    exact congrArg _ (ih false)

theorem returnFeeds_cons (c : Char) (s : Text) :
    returnFeeds (c :: s) = returnFeeds s + if c = '\r' ∧
      s.head? = some '\n' then 1 else 0 := by
  cases s with
  | nil => simp [returnFeeds]
  | cons d s => simp [returnFeeds, List.count_cons, Prod.ext_iff]

/-- Each line break is written as one line feed. -/
theorem count_normalizeFrom (inRun : Bool) (s : Text) :
    (normalizeFrom inRun s).count '\n' + returnFeeds s =
      s.countP isLineBreak := by
  have noReturn {c : Char} (unbroken : isLineBreak c = false) (s : Text) :
      ¬ (c = '\r' ∧ s.head? = some '\n') := by
    intro h
    rw [h.1] at unbroken
    exact absurd unbroken (by decide)
  induction s using normalForm_induction generalizing inRun with
  | nil => rfl
  | returnFeed s ih =>
    have rest := ih false
    rw [normalizeFrom_return_feed, List.count_cons_self, returnFeeds_cons,
      returnFeeds_cons, List.countP_cons_of_pos (by decide),
      List.countP_cons_of_pos (by decide), ← rest, normalize]
    simp
    omega
  | lineBreak c s hbreak alone ih =>
    have rest := ih false
    have single : ¬ (c = '\r' ∧ s.head? = some '\n') := fun h => alone h.1 h.2
    rw [normalizeFrom_break hbreak alone, List.count_cons_self,
      returnFeeds_cons, if_neg single, List.countP_cons_of_pos hbreak, ← rest,
      normalize]
    omega
  | gap c s blank unbroken ih =>
    rw [normalizeFrom_gap_cons blank unbroken, returnFeeds_cons,
      if_neg (noReturn unbroken s),
      List.countP_cons_of_neg (by simp [unbroken])]
    split
    · exact ih true
    · rw [List.count_cons_of_ne (by decide)]
      exact ih true
  | mark c s shown ih =>
    have unbroken := not_isLineBreak_of_not_isBlank shown
    rw [normalizeFrom_mark shown, returnFeeds_cons,
      if_neg (noReturn unbroken s),
      List.countP_cons_of_neg (by simp [unbroken]),
      List.count_cons_of_ne (plainEquals_ne_feed shown)]
    exact ih false

/-- Normalising reaches the normal form and keeps a text that has it; it keeps
the shown characters, up to the full-width equals sign, with their neighbours,
and writes each line break as one line feed. -/
theorem normalize_projection (s : Text) :
    IsNormal (normalize s) ∧ (normalize s = s ↔ IsNormal s) ∧
      normalize (normalize s) = normalize s ∧
      (normalize s).filter (!isBlank ·) =
        (s.filter (!isBlank ·)).map plainEquals ∧
      joints (normalize s) = joints s ∧
      (normalize s).count '\n' = lineBreaks s := by
  have normal := isNormal_normalize s
  have stays {t : Text} (h : IsNormal t) : normalize t = t :=
    normalizeFrom_of_isNormal h (by simp)
  have kept : marks (normalize s) = (marks s).map (Prod.map plainEquals id) :=
    marks_normalizeFrom false s
  refine ⟨normal, ⟨fun same => same ▸ normal, stays⟩, stays normal, ?_, ?_, ?_⟩
  · rw [← map_fst_marks, ← map_fst_marks, kept, List.map_map, List.map_map]
    rfl
  · rw [joints, joints, kept, List.map_map]
    rfl
  · have count := count_normalizeFrom false s
    rw [normalize, lineBreaks]
    omega

example : lineBreaks "a\r\n\rb\u2028".toList = 3 := by decide

end Worksheet.Text

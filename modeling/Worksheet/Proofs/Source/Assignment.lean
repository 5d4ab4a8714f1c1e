import Mathlib.Data.List.Basic
import Worksheet.Source.Classification

/-!
# Assignment signs under an edit

Whether an equals sign assigns depends on its two neighbours only. A literal
without signs of comparison can therefore replace another text, behind an
assignment sign that stays the only one.
-/

namespace Worksheet.Vocabulary

open Text

/-- No equals sign of a text assigns, when it stands behind the text
`before`. -/
def Unassigned (before s : Text) : Prop := assignmentsAfter before s = []

theorem Unassigned.tail {before s : Text} {c : Char}
    (h : Unassigned before (c :: s)) :
    Unassigned (c :: before) s := by
  unfold Unassigned at h ⊢
  rw [assignmentsAfter] at h
  split at h
  · cases h
  · exact h

/-- What follows a part of a text without assignments has none. -/
theorem Unassigned.of_append {before s t : Text}
    (h : Unassigned before (s ++ t)) :
    Unassigned (s.reverse ++ before) t := by
  induction s generalizing before with
  | nil => exact h
  | cons c s ih =>
    rw [List.reverse_cons, List.append_assoc]
    exact ih h.tail

/-- Characters that are no equals signs assign nothing. -/
theorem Unassigned.append {before s t : Text} (hs : ∀ c ∈ s, isEquals c = false)
    (h : Unassigned (s.reverse ++ before) t) : Unassigned before (s ++ t) := by
  induction s generalizing before with
  | nil => exact h
  | cons c s ih =>
    rw [List.reverse_cons, List.append_assoc] at h
    have rest := ih (fun x hx => hs x (List.mem_cons_of_mem c hx)) h
    unfold Unassigned at rest ⊢
    rw [List.cons_append, assignmentsAfter, hs c List.mem_cons_self]
    exact rest

/-- What stands before matters for an equals sign at the front only, and only by
its last character. -/
theorem Unassigned.congr {before before' s : Text} (h : Unassigned before s)
    (same : s.head?.any isEquals = true →
      before.head?.any comparesBefore = before'.head?.any comparesBefore) :
    Unassigned before' s := by
  induction s generalizing before before' with
  | nil => rfl
  | cons c s ih =>
    -- From the second character on, both stand behind the same character.
    have tail : Unassigned (c :: before') s := ih h.tail (fun _ => rfl)
    unfold Unassigned at h tail ⊢
    rw [assignmentsAfter] at h ⊢
    by_cases hc : isEquals c = true
    · rw [← same hc]
      split at h
      · cases h
      · next stays => rw [if_neg stays, tail]
    · rw [if_neg (by simp [hc]), tail]

/-- The first assignment of a text is found again when another text follows its
sign. -/
theorem exists_of_assignmentsAfter_cons {before s : Text} {a : Assignment}
    {others : List Assignment} (h : assignmentsAfter before s = a :: others) :
    ∃ front, s = front ++ a.sign :: a.right ∧ a.left = before.reverse ++ front ∧
      others = assignmentsAfter (a.sign :: (front.reverse ++ before)) a.right ∧
      ∀ right : Text, right.head?.any isEquals = false →
        assignmentsAfter before (front ++ a.sign :: right) =
          ⟨a.left, a.sign, right⟩ ::
            assignmentsAfter (a.sign :: (front.reverse ++ before)) right := by
  induction s generalizing before with
  | nil => cases h
  | cons c s ih =>
    rw [assignmentsAfter] at h
    split at h
    · next assigns =>
      obtain ⟨rfl, rfl⟩ := List.cons.inj h
      refine ⟨[], rfl, by simp, rfl, ?_⟩
      intro right hright
      simp only [Bool.and_eq_true] at assigns
      simp [assignmentsAfter, assigns.1.1, assigns.2, hright]
    · next stays =>
      obtain ⟨front, hs, left, hothers, again⟩ := ih h
      refine ⟨c :: front, by rw [hs]; rfl, by simp [left],
        by simpa using hothers, ?_⟩
      intro right hright
      -- The next character is the old one, also when it is the sign itself.
      have next : (front ++ a.sign :: right).head? = s.head? := by
        rw [hs]
        cases front <;> rfl
      rw [List.cons_append, assignmentsAfter, next, if_neg stays,
        again right hright]
      simp

/-- A text behind the only assignment sign can be replaced in part: what stands
before the part and the new text hold no equals sign, and an equals sign after
the part has the same kind of neighbour. -/
theorem assignments_replace {s left right front old new back : Text}
    {sign : Char} (h : assignments s = [⟨left, sign, right⟩])
    (hright : right = front ++ (old ++ back))
    (hfront : ∀ c ∈ front, isEquals c = false)
    (hnew : ∀ c ∈ new, isEquals c = false) (ne : front ++ new ≠ [])
    (same : back.head?.any isEquals = true →
      (front ++ old).getLast?.any comparesBefore = false ∧ front ++ old ≠ [] ∧
      (front ++ new).getLast?.any comparesBefore = false) :
    s = left ++ sign :: right ∧
      assignments (left ++ sign :: (front ++ (new ++ back))) =
        [⟨left, sign, front ++ (new ++ back)⟩] := by
  obtain ⟨lead, hs, hleft, hothers, again⟩ := exists_of_assignmentsAfter_cons h
  simp only [List.reverse_nil, List.nil_append, List.append_nil]
    at hs hleft hothers again
  subst hleft
  refine ⟨hs, ?_⟩
  have calm : ∀ c ∈ front ++ new, isEquals c = false := by
    intro c hc
    rcases List.mem_append.1 hc with hc | hc
    · exact hfront c hc
    · exact hnew c hc
  have head : (front ++ (new ++ back)).head?.any isEquals = false := by
    obtain ⟨c, t, ht⟩ := List.exists_cons_of_ne_nil ne
    rw [← List.append_assoc, ht]
    exact calm c (ht ▸ List.mem_cons_self)
  -- The new text adds no sign, and the rest has none because it had none
  -- before.
  have unassigned :
      Unassigned (sign :: left.reverse) (front ++ (old ++ back)) := by
    rw [← hright]
    exact hothers.symm
  rw [← List.append_assoc] at unassigned
  have tail : Unassigned (sign :: left.reverse) (front ++ new ++ back) := by
    apply Unassigned.append calm
    apply unassigned.of_append.congr
    intro hback
    obtain ⟨hold, neOld, hnew'⟩ := same hback
    have last {t : Text} (ht : t ≠ []) (u : Text) :
        (t.reverse ++ u).head? = t.getLast? := by
      rw [List.head?_append_of_ne_nil _ (by simpa using ht), List.head?_reverse]
    rw [last neOld, last ne, hold, hnew']
  rw [List.append_assoc] at tail
  rw [assignments, again _ head]
  exact congrArg _ tail

/-! ## The assignment signs of a text -/

/-- A text is cut at an equals sign that assigns, which is one that is no part
of a comparison. -/
structure Assignment.Cuts (a : Assignment) (s : Text) : Prop where
  text : s = a.left ++ a.sign :: a.right
  sign : isEquals a.sign = true
  after : a.right.head?.any isEquals = false
  before : a.left.getLast?.any comparesBefore = false

theorem mem_assignmentsAfter_iff {before s : Text} {a : Assignment} :
    a ∈ assignmentsAfter before s ↔
      ∃ front, a.left = before.reverse ++ front ∧
        a.Cuts (before.reverse ++ s) := by
  induction s generalizing before with
  | nil =>
    simp only [assignmentsAfter, List.not_mem_nil, List.append_nil, false_iff]
    rintro ⟨front, left, cuts⟩
    have length := congrArg List.length cuts.text
    rw [left, List.length_append, List.length_append,
      List.length_cons] at length
    omega
  | cons c s ih =>
    have last : before.reverse.getLast?.any comparesBefore =
        before.head?.any comparesBefore := by
      rw [List.getLast?_reverse]
    have shift : (c :: before).reverse ++ s = before.reverse ++ c :: s := by
      simp
    rw [assignmentsAfter]
    constructor
    · intro mem
      have later (mem : a ∈ assignmentsAfter (c :: before) s) :
          ∃ front, a.left = before.reverse ++ front ∧
            a.Cuts (before.reverse ++ c :: s) := by
        obtain ⟨front, left, cuts⟩ := ih.1 mem
        exact ⟨c :: front, by simpa using left, shift ▸ cuts⟩
      split at mem
      · next assigns =>
        simp only [Bool.and_eq_true, Bool.not_eq_true'] at assigns
        rcases List.mem_cons.1 mem with rfl | mem
        · exact ⟨[], by simp, rfl, assigns.1.1, assigns.1.2,
            last.trans assigns.2⟩
        · exact later mem
      · exact later mem
    · rintro ⟨front, left, cuts⟩
      have text := cuts.text
      rw [left, List.append_assoc, List.append_cancel_left_eq] at text
      cases front with
      | nil =>
        obtain ⟨rfl, rfl⟩ := List.cons.inj text
        rw [List.append_nil] at left
        have before := cuts.before
        rw [left, last] at before
        rw [if_pos (by simp [cuts.sign, cuts.after, before]), ← left]
        exact List.mem_cons_self
      | cons d front =>
        obtain ⟨rfl, -⟩ := List.cons.inj text
        have mem : a ∈ assignmentsAfter (c :: before) s :=
          ih.2 ⟨front, by simpa using left, shift ▸ cuts⟩
        split
        · exact List.mem_cons_of_mem _ mem
        · exact mem

theorem mem_assignments_iff {s : Text} {a : Assignment} :
    a ∈ assignments s ↔ a.Cuts s := by
  rw [assignments, mem_assignmentsAfter_iff]
  constructor
  · rintro ⟨front, -, cuts⟩
    exact cuts
  · intro cuts
    exact ⟨a.left, rfl, cuts⟩

/-- No sign is found twice. -/
theorem nodup_assignmentsAfter (before s : Text) :
    (assignmentsAfter before s).Nodup := by
  induction s generalizing before with
  | nil => exact List.nodup_nil
  | cons c s ih =>
    rw [assignmentsAfter]
    split
    · refine List.nodup_cons.2 ⟨?_, ih (c :: before)⟩
      -- Later signs have more text before them.
      intro mem
      obtain ⟨front, left, -⟩ := mem_assignmentsAfter_iff.1 mem
      have length := congrArg List.length left
      simp only [List.length_reverse, List.length_append,
        List.length_cons] at length
      omega
    · exact ih (c :: before)

/-- A text has one assignment sign just when it can be cut at one in one way. -/
theorem assignments_eq_singleton_iff {s : Text} {a : Assignment} :
    assignments s = [a] ↔ a.Cuts s ∧ ∀ b : Assignment, b.Cuts s → b = a := by
  simp only [← mem_assignments_iff]
  constructor
  · intro single
    simp [single]
  · rintro ⟨mem, only⟩
    have nodup := nodup_assignmentsAfter [] s
    rw [← assignments] at nodup
    cases h : assignments s with
    | nil => simp [h] at mem
    | cons b others =>
      rw [h] at only nodup
      obtain rfl := only b List.mem_cons_self
      cases others with
      | nil => rfl
      | cons c others =>
        obtain rfl := only c (by simp)
        simp at nodup

end Worksheet.Vocabulary

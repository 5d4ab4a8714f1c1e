import Worksheet.Proofs.Source.Slot
import Worksheet.Proofs.Text.Parts

/-!
# The longest unit token

Reading runs forward over all characters that can go on a unit, and then gives
back the joiners at the end. Every unit token in front of the text is a front of
that run, and as it does not end in a joiner, giving joiners back does not
shorten it. So what is left is the longest unit token in front, or nothing when
there is none.
-/

namespace Worksheet.Vocabulary

open Text

variable {v : Vocabulary} {before : Char} {s t : Text}

/-! ## The run -/

theorem unitRun_isPrefix (v : Vocabulary) (before : Char) (s : Text) :
    v.unitRun before s <+: s := by
  induction s generalizing before with
  | nil => exact List.nil_prefix
  | cons c s ih =>
    rw [unitRun]
    split
    · exact (List.prefix_cons_inj c).2 (ih c)
    · exact List.nil_prefix

theorem isUnitTail_unitRun (v : Vocabulary) (before : Char) (s : Text) :
    v.isUnitTail before (v.unitRun before s) = true := by
  induction s generalizing before with
  | nil => rfl
  | cons c s ih =>
    rw [unitRun]
    split
    · next continues => rw [isUnitTail, continues, ih c, Bool.and_true]
    · rfl

/-- Whatever goes on a unit is part of the run. -/
theorem isPrefix_unitRun (tail : v.isUnitTail before t = true)
    (front : t <+: s) :
    t <+: v.unitRun before s := by
  induction t generalizing before s with
  | nil => exact List.nil_prefix
  | cons c t ih =>
    obtain ⟨rest, rfl⟩ := front
    rw [isUnitTail, Bool.and_eq_true] at tail
    rw [List.cons_append, unitRun, if_pos tail.1, List.prefix_cons_inj]
    exact ih tail.2 (List.prefix_append t rest)

/-! ## The token -/

theorem unitToken_isPrefix (v : Vocabulary) (s : Text) :
    v.unitToken s <+: s := by
  cases s with
  | nil => exact List.nil_prefix
  | cons c s =>
    rw [unitToken]
    split
    · have kept := dropEndWhile_append_takeEndWhile unitJoiners.contains
        (c :: v.unitRun c s)
      exact List.IsPrefix.trans ⟨_, kept⟩
        ((List.prefix_cons_inj c).2 (unitRun_isPrefix v c s))
    · exact List.nil_prefix

theorem not_unitToken_nil : ¬v.UnitToken [] := by
  intro h
  exact Bool.false_ne_true h.first

/-- What is read is nothing or one unit token. -/
theorem unitToken_cases (v : Vocabulary) (s : Text) :
    v.unitToken s = [] ∨ v.UnitToken (v.unitToken s) := by
  cases s with
  | nil => exact .inl rfl
  | cons c s =>
    rw [unitToken]
    split
    swap
    · exact .inl rfl
    next start =>
    have join :=
      dropEndWhile_append_takeEndWhile unitJoiners.contains (c :: v.unitRun c s)
    have last :=
      getLast?_dropEndWhile_any unitJoiners.contains (c :: v.unitRun c s)
    have chain := isUnitTail_iff.1 (isUnitTail_unitRun v c s)
    rw [← join] at chain
    cases token : dropEndWhile unitJoiners.contains (c :: v.unitRun c s) with
    | nil => exact .inl rfl
    | cons d token' =>
      rw [token] at join last chain
      obtain ⟨rfl, -⟩ := List.cons.inj join
      exact .inr ⟨start, chain.left_of_append, last⟩

/-- Every unit token in front of a text is a front of the one that is read. -/
theorem isPrefix_unitToken (token : v.UnitToken t) (front : t <+: s) :
    t <+: v.unitToken s := by
  cases t with
  | nil => exact absurd token not_unitToken_nil
  | cons c t =>
    obtain ⟨rest, rfl⟩ := front
    have start : v.isUnitStart c = true := token.first
    have run := isPrefix_unitRun (isUnitTail_iff.2 token.later)
      (List.prefix_append t rest)
    rw [List.cons_append, unitToken, if_pos start]
    exact isPrefix_dropEndWhile ((List.prefix_cons_inj c).2 run) token.last

/-- Reading a unit takes the longest unit token in front of a text: its size is
that of the longest one, and zero when there is none. What is read is accepted
whole when it is read again. -/
theorem unitToken_longest (v : Vocabulary) (s : Text) :
    (∀ n, (v.unitToken s).size = n ↔ LongestSize v.UnitToken s n) ∧
    (∀ t, v.unitToken s = t ∧ t ≠ [] ↔ IsLongest v.UnitToken s t) ∧
    v.unitToken (v.unitToken s) = v.unitToken s ∧
    v.wholeUnit? (v.unitToken s) = some (v.unitToken s) := by
  have front := unitToken_isPrefix v s
  have longest : ∀ t, v.UnitToken t → t <+: s → t <+: v.unitToken s :=
    fun t token front => isPrefix_unitToken token front
  refine ⟨?_, ?_, ?_, ?_⟩
  · intro n
    exact (longestSize_iff not_unitToken_nil front
      (unitToken_cases v s) longest).symm
  · intro t
    constructor
    · rintro ⟨rfl, ne⟩
      exact ⟨(unitToken_cases v s).resolve_left ne, front, longest⟩
    · intro h
      have ne : t ≠ [] := by
        rintro rfl
        exact not_unitToken_nil h.kind
      have token : v.UnitToken (v.unitToken s) := by
        refine (unitToken_cases v s).resolve_left fun nil => ne ?_
        rw [← List.prefix_nil, ← nil]
        exact longest t h.kind h.front
      exact ⟨IsLongest.unique ⟨token, front, longest⟩ h, ne⟩
  · exact unitToken_eq_self_iff.2 (unitToken_cases v s)
  · exact wholeUnit?_eq_some_iff.2 ⟨rfl, unitToken_cases v s⟩

/-- A minus sign goes on a unit behind `^` only, and is given back with the
joiners before it; an added joiner may begin a unit, as `_` does here. -/
example :
    builtIn.unitToken "kN·m^-/·x".toList = "kN·m^-/·x".toList ∧
      builtIn.unitToken "kN·m^-/·".toList = "kN·m".toList ∧
      builtIn.unitToken "m-1".toList = ['m'] ∧
      unitToken ⟨['_'], []⟩ "__/".toList = [] := by
  decide +kernel

end Worksheet.Vocabulary

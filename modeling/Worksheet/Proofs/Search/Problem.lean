import Mathlib.Data.List.Forall2
import Worksheet.Proofs.Decimal.Notation
import Worksheet.Proofs.Json.Quoted
import Worksheet.Search.Problem

/-!
# What signatures and keys tell apart

A signature determines the parts of the problem that it is written from, and a
key determines these parts and the texts of the values. Problems with one
signature therefore give the same keys.
-/

namespace Worksheet.Problem

open Decimal

/-- The parts of a problem as its signature shows them. -/
def shape (p : Problem) : List Text × List Text × List Text × List Text :=
  (p.designVariables, p.objectives, p.modes.map normalizeMode,
   p.targets.map roundTrip)

theorem shape_eq_of_signature_eq {p q : Problem}
    (h : p.signature = q.signature) :
    p.shape = q.shape := by
  have fields := Json.quotedObject_inj h
  simp only [List.cons.injEq, Prod.mk.injEq, true_and, and_true] at fields
  obtain ⟨designVariables, objectives, modes, targets⟩ := fields
  simp only [shape, designVariables, objectives, modes, targets]

theorem key_eq_of_signature_eq {p q : Problem} (h : p.signature = q.signature)
    (values : List Float) :
    p.key values = q.key values := by
  have parts := shape_eq_of_signature_eq h
  simp only [shape, Prod.mk.injEq] at parts
  obtain ⟨designVariables, objectives, modes, targets⟩ := parts
  simp only [key, designVariables, objectives, modes, targets]

/-- Values print alike when there are as many of each and their texts are equal
one by one. -/
def PrintAlike (xs ys : List Float) : Prop :=
  List.Forall₂ (fun x y => roundTrip x = roundTrip y) xs ys

theorem printAlike_iff_map {xs ys : List Float} :
    PrintAlike xs ys ↔ xs.map roundTrip = ys.map roundTrip := by
  rw [← List.forall₂_eq_eq_eq, List.forall₂_map_left_iff,
    List.forall₂_map_right_iff, PrintAlike]

/-- Values print alike when they have the same bits, or both are no number. -/
theorem printAlike_iff {xs ys : List Float} :
    PrintAlike xs ys ↔
      List.Forall₂ (fun x y => x.toBits = y.toBits ∨ x.isNaN = true ∧
        y.isNaN = true) xs ys := by
  simp only [PrintAlike, roundTrip_eq_iff]

/-! ## Signatures and keys of two problems -/

/-- Two problems have the same parts, up to how modes are spelt and targets
print. -/
structure Alike (p q : Problem) : Prop where
  designVariables : p.designVariables = q.designVariables
  objectives : p.objectives = q.objectives
  modes : p.modes.map normalizeMode = q.modes.map normalizeMode
  targets : PrintAlike p.targets q.targets

theorem shape_eq_iff {p q : Problem} : p.shape = q.shape ↔ p.Alike q := by
  simp only [shape, Prod.mk.injEq]
  constructor
  · rintro ⟨designVariables, objectives, modes, targets⟩
    exact ⟨designVariables, objectives, modes, printAlike_iff_map.2 targets⟩
  · rintro ⟨designVariables, objectives, modes, targets⟩
    exact ⟨designVariables, objectives, modes, printAlike_iff_map.1 targets⟩

theorem signature_eq_iff {p q : Problem} :
    p.signature = q.signature ↔ p.Alike q := by
  constructor
  · intro h
    exact shape_eq_iff.1 (shape_eq_of_signature_eq h)
  · intro h
    rw [signature, signature, h.designVariables, h.objectives, h.modes,
      printAlike_iff_map.1 h.targets]

/-- A key shows what the signature shows, and the texts of the values. -/
theorem key_eq_key_iff {p q : Problem} {xs ys : List Float} :
    p.key xs = q.key ys ↔ p.Alike q ∧ PrintAlike xs ys := by
  constructor
  · intro h
    have fields := Json.quotedObject_inj h
    simp only [List.cons.injEq, Prod.mk.injEq, true_and, and_true] at fields
    obtain ⟨designVariables, values, objectives, modes, targets⟩ := fields
    exact ⟨⟨designVariables, objectives, modes, printAlike_iff_map.2 targets⟩,
      printAlike_iff_map.2 values⟩
  · rintro ⟨alike, values⟩
    rw [key, key, alike.designVariables, alike.objectives, alike.modes,
      printAlike_iff_map.1 alike.targets, printAlike_iff_map.1 values]

/-- Keys of one problem are equal when the values print alike. -/
theorem key_eq_iff {p : Problem} {xs ys : List Float} :
    p.key xs = p.key ys ↔ PrintAlike xs ys := by
  rw [key_eq_key_iff, and_iff_right (shape_eq_iff.1 rfl)]

/-- The goals depend on the normal forms of the modes alone. -/
theorem goalAt_congr {modes modes' : List Text}
    (h : modes.map normalizeMode = modes'.map normalizeMode) (i : Nat) :
    goalAt modes i = goalAt modes' i := by
  have same := congrArg (fun ms => ms[i]?) h
  simp only [List.getElem?_map] at same
  unfold goalAt
  cases hm : modes[i]? with
  | none =>
    rw [hm, Option.map_none, eq_comm, Option.map_eq_none_iff] at same
    rw [same]
  | some mode =>
    rw [hm, Option.map_some, eq_comm, Option.map_eq_some_iff] at same
    obtain ⟨mode', hm', normal⟩ := same
    rw [hm', Option.map_some, Option.map_some, Goal.ofMode, Goal.ofMode, normal]

/-- Signatures tell problems apart by design variables, objectives, normal forms
of modes and texts of targets, and keys by the texts of the values as well.
Equal signatures therefore give equal keys for all values and the same goal at
every place, and equal keys come from equal signatures. -/
theorem signature_key_injective (p q : Problem) (xs ys : List Float) :
    (p.signature = q.signature ↔ p.Alike q) ∧
    (p.key xs = q.key ys ↔ p.Alike q ∧ PrintAlike xs ys) ∧
    (p.signature = q.signature →
      (∀ values, p.key values = q.key values) ∧ ∀ i, p.goal i = q.goal i) ∧
    (p.key xs = q.key ys → p.signature = q.signature) ∧
    ∀ us vs, PrintAlike us vs ↔
      List.Forall₂ (fun x y => x.toBits = y.toBits ∨ x.isNaN = true ∧
        y.isNaN = true) us vs := by
  refine ⟨signature_eq_iff, key_eq_key_iff, ?_, ?_, ?_⟩
  · intro h
    refine ⟨key_eq_of_signature_eq h, ?_⟩
    intro i
    exact goalAt_congr (signature_eq_iff.1 h).modes i
  · intro h
    exact signature_eq_iff.2 (key_eq_key_iff.1 h).1
  · intro us vs
    exact printAlike_iff

/-- A mode may be spelt with capitals and margins, but a comma in a name does
not make two names. -/
theorem signature_key_injective_sample :
    Problem.signature ⟨["a".toList, "b".toList], [], [" Max".toList], [0]⟩ =
        Problem.signature ⟨["a".toList, "b".toList], [], ["max".toList], [0]⟩ ∧
      (∀ i, Problem.goal ⟨["a".toList, "b".toList], [], [" Max".toList], [0]⟩ i =
        Problem.goal ⟨["a".toList, "b".toList], [], ["max".toList], [0]⟩ i) ∧
      Problem.signature ⟨["a\",\"b".toList], [], [], []⟩ ≠
        Problem.signature ⟨["a".toList, "b".toList], [], [], []⟩ := by
  have same :
      Problem.signature ⟨["a".toList, "b".toList], [], [" Max".toList], [0]⟩ =
      Problem.signature ⟨["a".toList, "b".toList], [], ["max".toList],
        [0]⟩ := by decide +kernel
  refine ⟨same, ((signature_key_injective _ _ [] []).2.2.1 same).2, ?_⟩
  intro h
  have alike := (signature_key_injective _ _ [] []).1.1 h
  exact absurd alike.designVariables (by decide)

end Worksheet.Problem

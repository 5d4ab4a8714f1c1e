import Mathlib.Data.List.Induction
import Worksheet.Source.LineTable
import Worksheet.Source.Variables

/-!
# The last declaration wins

A variable table gives for a name what was declared last under it. What other
names declare does not matter for it.
-/

namespace Worksheet

open Text

namespace VariableTable

theorem find?_upsert (x : Variable) (t : VariableTable) (name : Text) :
    (upsert x t).find? name = if x.name = name then some x
      else t.find? name := by
  induction t with
  | nil => by_cases h : x.name = name <;> simp [upsert, find?, h]
  | cons y ys ih =>
    rw [upsert]
    split
    · next same => by_cases h : x.name = name <;> simp [find?, h, same]
    · next other =>
      unfold find? at ih ⊢
      rw [List.find?_cons, List.find?_cons, ih]
      cases hy : y.name == name with
      | true =>
        have hx : x.name ≠ name := by
          rintro rfl
          exact other (beq_iff_eq.1 hy)
        exact (if_neg hx).symm
      | false => rfl

/-- The variable of a name is the last one that was written under it. -/
theorem find?_ofList (xs : List Variable) (name : Text) :
    (ofList xs).find? name = (xs.filter (·.name == name)).getLast? := by
  induction xs using List.reverseRecOn with
  | nil => rfl
  | append_singleton xs x ih =>
    have snoc : ofList (xs ++ [x]) = upsert x (ofList xs) := by simp [ofList]
    rw [snoc, find?_upsert, ih, List.filter_append]
    by_cases h : x.name = name <;> simp [h]

end VariableTable

theorem Statement.name?_of_variable? {s : Statement} {x : Variable}
    (h : s.variable? = some x) :
    s.name? = some x.name := by
  cases s with
  | declared form name slot unit body =>
    obtain ⟨value, -, rfl⟩ := Option.map_eq_some_iff.1 h
    rfl
  | _ => cases h

/-- The variables that statements declare under a name. -/
def declaredUnder (name : Text) (statements : List Statement) : List Variable :=
  (statements.filterMap Statement.variable?).filter (·.name == name)

theorem declaredUnder_append (name : Text) (ss ts : List Statement) :
    declaredUnder name (ss ++ ts) =
      declaredUnder name ss ++ declaredUnder name ts := by
  simp [declaredUnder]

/-- A statement with another name declares nothing under a name. -/
theorem declaredUnder_cons_of_ne {name : Text} {s : Statement}
    (h : s.name? ≠ some name) (ss : List Statement) :
    declaredUnder name (s :: ss) = declaredUnder name ss := by
  unfold declaredUnder
  cases hs : s.variable? with
  | none => rw [List.filterMap_cons_none hs]
  | some x =>
    have other : x.name ≠ name := by
      rintro rfl
      exact h (Statement.name?_of_variable? hs)
    rw [List.filterMap_cons_some hs,
      List.filter_cons_of_neg (by simpa using other)]

/-- The variable of a name is the last one, of those that count, that the
statements of a source declare under it. -/
theorem Vocabulary.find?_variableTable (v : Vocabulary) (explicitOnly : Bool)
    (source name : Text) :
    (v.variableTable explicitOnly source).find? name =
      ((declaredUnder name
        ((LineTable.read v source).flatMap fun r => r.line.statements)).filter
        fun x => x.origin == .explicit || !explicitOnly).getLast? := by
  rw [variableTable, VariableTable.find?_ofList, declarations, declaredUnder]
  simp only [LineTable.read, lines, List.flatMap_map, List.filterMap_flatMap,
    List.filter_filter, Bool.and_comm]

end Worksheet

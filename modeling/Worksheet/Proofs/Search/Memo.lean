import Mathlib.Data.List.DropRight
import Worksheet.Search.Memo

/-!
# A memo as a list of entries

A memo holds a list of entries, oldest first, when the order lists their keys,
no key comes twice, and the table has just these entries in some order. Every
operation keeps this: a look-up finds what the list has under the key, and a new
key comes last, behind the newest entries that the capacity leaves.
-/

namespace Worksheet.Memo

/-- The memo holds these entries, oldest first. -/
structure Holds (m : Memo) (entries : List (Text × Entry)) : Prop where
  order : m.order = entries.map Prod.fst
  nodup : (entries.map Prod.fst).Nodup
  table : m.table.Perm entries

/-- What a capacity leaves of a list when one more is to come: the newest
items. -/
def kept {α : Type} (capacity : Option Nat) (xs : List α) : List α :=
  match capacity with
  | some c => xs.rtake (c - 1)
  | none => xs

theorem map_rtake {α β : Type} (f : α → β) (n : Nat) (xs : List α) :
    (xs.rtake n).map f = (xs.map f).rtake n := by
  simp [List.rtake, List.map_drop]

theorem map_kept {α β : Type} (f : α → β) (capacity : Option Nat)
    (xs : List α) :
    (kept capacity xs).map f = kept capacity (xs.map f) := by
  cases capacity with
  | none => rfl
  | some c => exact map_rtake f (c - 1) xs

theorem kept_sublist {α : Type} (capacity : Option Nat) (xs : List α) :
    (kept capacity xs).Sublist xs := by
  cases capacity with
  | none => exact .refl xs
  | some c => exact List.drop_sublist _ xs

/-- The first item is not among the newest ones when these are no more than the
others. -/
theorem rtake_cons_of_le {α : Type} {n : Nat} {xs : List α} (h : n ≤ xs.length)
    (x : α) :
    (x :: xs).rtake n = xs.rtake n := by
  rw [List.rtake, List.length_cons, Nat.sub_add_comm h]
  rfl

theorem rtake_of_length_le {α : Type} {n : Nat} {xs : List α}
    (h : xs.length ≤ n) :
    xs.rtake n = xs := by
  rw [List.rtake, Nat.sub_eq_zero_of_le h, List.drop_zero]

theorem rtake_rtake_of_le {α : Type} {n c : Nat} (h : n ≤ c) (xs : List α) :
    (xs.rtake c).rtake n = xs.rtake n := by
  rw [List.rtake, List.rtake, List.rtake, List.drop_drop, List.length_drop]
  congr 1
  omega

theorem length_kept {α : Type} (c : Nat) (xs : List α) :
    (kept (some c) xs).length = min xs.length (c - 1) := by
  simp only [kept, List.rtake, List.length_drop]
  omega

/-! ## Look-ups -/

/-- With distinct keys, a look-up finds just the entries of the list. -/
theorem lookup?_eq_some_iff {entries : List (Text × Entry)}
    (nodup : (entries.map Prod.fst).Nodup) {key : Text} {e : Entry} :
    lookup? key entries = some e ↔ (key, e) ∈ entries := by
  induction entries with
  | nil => simp [lookup?]
  | cons pair entries ih =>
    obtain ⟨k, f⟩ := pair
    rw [List.map_cons, List.nodup_cons] at nodup
    by_cases h : k = key
    · subst h
      have fresh : (k, e) ∉ entries := by
        intro he
        apply nodup.1
        exact List.mem_map.2 ⟨_, he, rfl⟩
      simp [lookup?, fresh, eq_comm]
    · rw [List.mem_cons, ← ih nodup.2]
      simp [lookup?, h, Ne.symm h]

variable {m : Memo} {entries : List (Text × Entry)}

namespace Holds

theorem peek?_eq_some_iff (h : m.Holds entries) {key : Text} {e : Entry} :
    m.peek? key = some e ↔ (key, e) ∈ entries := by
  have nodup : (m.table.map Prod.fst).Nodup :=
    (h.table.map Prod.fst).nodup_iff.2 h.nodup
  rw [peek?, lookup?_eq_some_iff nodup, h.table.mem_iff]

theorem peek?_eq_none_iff (h : m.Holds entries) {key : Text} :
    m.peek? key = none ↔ key ∉ entries.map Prod.fst := by
  rw [← Option.not_isSome_iff_eq_none, peek?, lookup?_isSome,
    (h.table.map Prod.fst).mem_iff]

theorem size_eq (h : m.Holds entries) : m.size = entries.length :=
  h.table.length_eq

/-! ## Operations -/

theorem empty (capacity : Option Nat) : (Memo.empty capacity).Holds [] :=
  ⟨rfl, .nil, .nil⟩

theorem clear (m : Memo) : m.clear.Holds [] := ⟨rfl, .nil, .nil⟩

theorem count (h : m.Holds entries) (key : Text) :
    (m.count key).Holds entries := by
  unfold Memo.count
  split <;> exact ⟨h.order, h.nodup, h.table⟩

end Holds

theorem erase_of_not_mem {key : Text} (h : key ∉ entries.map Prod.fst) :
    erase key entries = entries := by
  apply List.filter_eq_self.2
  intro pair hp
  rw [bne_iff_ne]
  rintro rfl
  exact h (List.mem_map.2 ⟨pair, hp, rfl⟩)

/-- Making room leaves the newest entries below the limit. -/
theorem makeRoom_spec {limit : Nat} (positive : 0 < limit)
    (nodup : (entries.map Prod.fst).Nodup) {table : List (Text × Entry)}
    (perm : table.Perm entries) :
    ∃ left, makeRoom limit (entries.map Prod.fst) table =
      ((entries.rtake (limit - 1)).map Prod.fst, left) ∧
      left.Perm (entries.rtake (limit - 1)) := by
  induction entries generalizing table with
  | nil => exact ⟨table, by simp [makeRoom], by simpa using perm⟩
  | cons pair entries ih =>
    obtain ⟨key, e⟩ := pair
    have fresh : key ∉ entries.map Prod.fst := (List.nodup_cons.1 nodup).1
    have length := perm.length_eq
    rw [List.length_cons] at length
    rw [List.map_cons, makeRoom]
    split
    · next full =>
      -- The oldest entry goes, and it was not among those that the limit
      -- leaves.
      have erased : (erase key table).Perm entries := by
        have := perm.filter (·.1 != key)
        rwa [List.filter_cons_of_neg (by simp), ← erase, ← erase,
          erase_of_not_mem fresh] at this
      obtain ⟨left, hleft, perm'⟩ := ih (List.nodup_cons.1 nodup).2 erased
      have same :=
        rtake_cons_of_le (show limit - 1 ≤ entries.length by omega) (key, e)
      rw [same]
      exact ⟨left, hleft, perm'⟩
    · next room =>
      have all :
          ((key, e) :: entries).rtake (limit - 1) = (key, e) :: entries := by
        apply rtake_of_length_le
        rw [List.length_cons]
        omega
      rw [all]
      exact ⟨table, rfl, perm⟩

theorem Holds.withRoom (h : m.Holds entries) :
    ∃ left, m.withRoom = ((kept m.capacity entries).map Prod.fst, left) ∧
      left.Perm (kept m.capacity entries) := by
  unfold Memo.withRoom
  cases hc : m.capacity with
  | none => exact ⟨m.table, by rw [h.order]; rfl, h.table⟩
  | some c =>
    have spec := makeRoom_spec (show 0 < max c 1 by omega) h.nodup h.table
    rw [show max c 1 - 1 = c - 1 by omega] at spec
    simpa only [h.order, kept] using spec

/-- A new key comes last, behind what the capacity leaves. -/
theorem Holds.insert (h : m.Holds entries) {key : Text}
    (fresh : m.peek? key = none) (e : Entry) :
    (m.insert key e).Holds (kept m.capacity entries ++ [(key, e)]) := by
  obtain ⟨left, hroom, perm⟩ := h.withRoom
  have notKept : key ∉ (kept m.capacity entries).map Prod.fst := by
    intro hk
    apply h.peek?_eq_none_iff.1 fresh
    exact ((kept_sublist _ _).map _).subset hk
  -- So putting the entry into the table replaces nothing.
  have notLeft : key ∉ left.map Prod.fst := by rwa [(perm.map Prod.fst).mem_iff]
  have inserted : m.insert key e =
      { m with order := (kept m.capacity entries).map Prod.fst ++ [key],
               table := (key, e) :: left } := by
    simp [Memo.insert, fresh, hroom, put, erase_of_not_mem notLeft]
  rw [inserted]
  refine ⟨by simp, ?_, ?_⟩
  · rw [List.map_append, List.map_singleton, List.nodup_append]
    refine ⟨h.nodup.sublist ((kept_sublist _ _).map _), by simp, ?_⟩
    rintro k hk _ hkey rfl
    rw [List.mem_singleton.1 hkey] at hk
    exact notKept hk
  · exact (List.Perm.cons _ perm).trans (List.perm_append_singleton _ _).symm

@[simp] theorem capacity_insert (m : Memo) (key : Text) (e : Entry) :
    (m.insert key e).capacity = m.capacity := by
  unfold Memo.insert
  split <;> rfl

end Worksheet.Memo

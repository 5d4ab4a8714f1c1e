import Worksheet.Proofs.Run
import Worksheet.Proofs.Search.Memo

/-!
# A memo as a bounded queue

A memo keeps the table of its entries apart from the order of their keys. The
plain program beside it keeps one list: a new key goes to the end, behind the
newest entries that the capacity leaves, and a key that is there takes the new
entry in its place. Over every run of operations both give the same answers, and
the memo holds just the entries of the list.
-/

namespace Worksheet

/-- What can be done with a memo. -/
inductive Memo.Action where
  | get (key : Text)
  | peek (key : Text)
  | insert (key : Text) (e : Entry)
  | clear

namespace Memo.Action

/-- Whether an action is a look-up that counts. -/
def isGet : Action → Bool
  | get _ => true
  | _ => false

/-- Whether an action may change what is found under a key: by another entry, or
by clearing. -/
def rewrites (key : Text) : Action → Bool
  | insert k _ => k == key
  | clear => true
  | _ => false

end Memo.Action

/-- The memo after an action, and what the action answers. -/
def Memo.act (m : Memo) : Memo.Action → Memo × Option Entry
  | .get key => (m.count key, m.peek? key)
  | .peek key => (m, m.peek? key)
  | .insert key e => (m.insert key e, none)
  | .clear => (m.clear, none)

/-! ## The plain program -/

/-- Entries under distinct keys in the order in which the keys came, oldest
first, and the counts of look-ups. -/
structure Fifo where
  entries : List (Text × Entry)
  hits : Nat
  misses : Nat

namespace Fifo

def empty : Fifo := ⟨[], 0, 0⟩

/-- An entry in the place of the one under the key. -/
def replace (key : Text) (e : Entry) (entries : List (Text × Entry)) :
    List (Text × Entry) :=
  entries.map fun pair => if pair.1 = key then (key, e) else pair

/-- Drops the oldest entries until fewer than `limit` remain. -/
def dropOldest (limit : Nat) : List (Text × Entry) → List (Text × Entry)
  | [] => []
  | pair :: entries =>
    if limit ≤ (pair :: entries).length then dropOldest limit entries
    else pair :: entries

/-- A key that is there takes the entry in its place; a new key comes last, when
there is room. -/
def insert (capacity : Option Nat) (key : Text) (e : Entry)
    (entries : List (Text × Entry)) :
    List (Text × Entry) :=
  if key ∈ entries.map Prod.fst then replace key e entries
  else
    capacity.elim entries (fun c => dropOldest (max c 1) entries) ++ [(key, e)]

/-- The list after an action, and what the action answers. -/
def act (capacity : Option Nat) (f : Fifo) : Memo.Action → Fifo × Option Entry
  | .get key =>
    match f.entries.lookup key with
    | some e => ({ f with hits := f.hits + 1 }, some e)
    | none => ({ f with misses := f.misses + 1 }, none)
  | .peek key => (f, f.entries.lookup key)
  | .insert key e =>
    ({ f with entries := insert capacity key e f.entries }, none)
  | .clear => ({ f with entries := [] }, none)

variable {capacity : Option Nat} {key : Text} {e : Entry}
  {entries : List (Text × Entry)}

theorem map_fst_replace (key : Text) (e : Entry)
    (entries : List (Text × Entry)) :
    (replace key e entries).map Prod.fst = entries.map Prod.fst := by
  rw [replace, List.map_map]
  apply List.map_congr_left
  intro pair _
  by_cases h : pair.1 = key <;> simp [h]

theorem replace_of_not_mem (h : key ∉ entries.map Prod.fst) :
    replace key e entries = entries := by
  rw [replace, List.map_congr_left (g := id), List.map_id]
  intro pair mem
  apply if_neg
  rintro rfl
  exact h (List.mem_map_of_mem mem)

/-- Putting an entry into a table in any order replaces it in the list. -/
theorem cons_erase_perm_replace (nodup : (entries.map Prod.fst).Nodup)
    (mem : key ∈ entries.map Prod.fst) (e : Entry) :
    ((key, e) :: Memo.erase key entries).Perm (replace key e entries) := by
  induction entries with
  | nil => cases mem
  | cons pair entries ih =>
    rw [List.map_cons, List.nodup_cons] at nodup
    by_cases h : pair.1 = key
    · -- No other entry is under the key.
      subst h
      have tail := replace_of_not_mem (e := e) nodup.1
      rw [replace] at tail
      rw [Memo.erase, List.filter_cons_of_neg (by simp), ← Memo.erase,
        Memo.erase_of_not_mem nodup.1, replace, List.map_cons, if_pos rfl, tail]
    · have later : key ∈ entries.map Prod.fst := by
        rcases List.mem_cons.1 mem with same | later
        · exact absurd same.symm h
        · exact later
      rw [Memo.erase, List.filter_cons_of_pos (by simp [h]), ← Memo.erase,
        replace, List.map_cons, if_neg h]
      exact (List.Perm.swap _ _ _).trans ((ih nodup.2 later).cons pair)

/-- What is left of the list are the newest entries below the limit. -/
theorem dropOldest_eq_rtake {limit : Nat} (positive : 0 < limit)
    (entries : List (Text × Entry)) :
    dropOldest limit entries = entries.rtake (limit - 1) := by
  induction entries with
  | nil => simp [dropOldest]
  | cons pair entries ih =>
    rw [dropOldest, List.length_cons]
    split
    · next full => rw [ih, Memo.rtake_cons_of_le (by omega)]
    · next room =>
      rw [Memo.rtake_of_length_le]
      rw [List.length_cons]
      omega

theorem insert_of_mem (h : key ∈ entries.map Prod.fst) :
    insert capacity key e entries = replace key e entries := if_pos h

theorem insert_of_not_mem (h : key ∉ entries.map Prod.fst) :
    insert capacity key e entries =
      Memo.kept capacity entries ++ [(key, e)] := by
  rw [insert, if_neg h]
  cases capacity with
  | none => rfl
  | some c =>
    rw [Option.elim_some, dropOldest_eq_rtake (by omega),
      show max c 1 - 1 = c - 1 by omega]
    rfl

/-- An insertion leaves the other entries, or drops them. -/
theorem mem_insert {pair : Text × Entry}
    (h : pair ∈ insert capacity key e entries) :
    pair = (key, e) ∨ pair ∈ entries ∧ pair.1 ≠ key := by
  by_cases there : key ∈ entries.map Prod.fst
  · rw [insert_of_mem there] at h
    obtain ⟨old, mem, rfl⟩ := List.mem_map.1 h
    by_cases same : old.1 = key
    · exact .inl (if_pos same)
    · rw [if_neg same]
      exact .inr ⟨mem, same⟩
  · rw [insert_of_not_mem there] at h
    rcases List.mem_append.1 h with mem | mem
    · have old := (Memo.kept_sublist _ _).subset mem
      refine .inr ⟨old, ?_⟩
      rintro rfl
      exact there (List.mem_map_of_mem old)
    · exact .inl (List.mem_singleton.1 mem)

theorem length_insert_le (bound : entries.length ≤ max c 1) :
    (insert (some c) key e entries).length ≤ max c 1 := by
  by_cases there : key ∈ entries.map Prod.fst
  · rw [insert_of_mem there, replace, List.length_map]
    exact bound
  · rw [insert_of_not_mem there, List.length_append, Memo.length_kept,
      List.length_singleton]
    omega

end Fifo

/-! ## Simulation -/

namespace Memo

/-- Whether dropping the oldest keys comes to the end of the keys while the
table still has `limit` entries. -/
def runsDry (limit : Nat) : List Text → List (Text × Entry) → Bool
  | [], table => limit ≤ table.length
  | key :: order, table =>
    if limit ≤ table.length then
      runsDry limit order (erase key table)
    else false

/-- Making room comes to the end of the keys just when it does not make room. -/
theorem runsDry_eq (limit : Nat) (order : List Text)
    (table : List (Text × Entry)) :
    runsDry limit order table =
      decide (limit ≤ (makeRoom limit order table).2.length) := by
  induction order generalizing table with
  | nil => rfl
  | cons key order ih =>
    rw [runsDry, makeRoom]
    split
    · exact ih (erase key table)
    · next room => simp [room]

variable {m : Memo} {entries : List (Text × Entry)} {key : Text} {e : Entry}

theorem lookup?_eq_lookup (key : Text) (entries : List (Text × Entry)) :
    lookup? key entries = entries.lookup key := by
  induction entries with
  | nil => rfl
  | cons pair entries ih =>
    obtain ⟨k, e⟩ := pair
    rw [List.lookup_cons, ← ih]
    by_cases h : k = key
    · simp [lookup?, h]
    · have other : (key == k) = false := beq_eq_false_iff_ne.2 (Ne.symm h)
      simp [lookup?, h, other]

namespace Holds

theorem peek?_eq_lookup (h : m.Holds entries) (key : Text) :
    m.peek? key = entries.lookup key := by
  rw [← lookup?_eq_lookup]
  apply Option.ext
  intro e
  rw [h.peek?_eq_some_iff, lookup?_eq_some_iff h.nodup]

/-- The table never keeps the entries of a limit when all keys are dropped. -/
theorem runsDry_eq_false (h : m.Holds entries) {limit : Nat}
    (positive : 0 < limit) :
    runsDry limit m.order m.table = false := by
  obtain ⟨left, made, perm⟩ := makeRoom_spec positive h.nodup h.table
  rw [runsDry_eq, h.order, made, decide_eq_false_iff_not, perm.length_eq,
    List.rtake, List.length_drop]
  omega

/-- An entry under a key that is there takes the place of the old one. -/
theorem insert_again (h : m.Holds entries) (there : key ∈ entries.map Prod.fst)
    (e : Entry) :
    (m.insert key e).Holds (Fifo.replace key e entries) := by
  have found : (m.peek? key).isSome = true := by
    rw [Option.isSome_iff_ne_none, ne_eq, h.peek?_eq_none_iff, not_not]
    exact there
  rw [Memo.insert, if_pos found]
  refine ⟨?_, ?_, ?_⟩
  · rw [Fifo.map_fst_replace]
    exact h.order
  · rw [Fifo.map_fst_replace]
    exact h.nodup
  · have erased : (erase key m.table).Perm (erase key entries) :=
      h.table.filter _
    exact (erased.cons _).trans (Fifo.cons_erase_perm_replace h.nodup there e)

theorem insert_fifo (h : m.Holds entries) (key : Text) (e : Entry) :
    (m.insert key e).Holds (Fifo.insert m.capacity key e entries) := by
  by_cases there : key ∈ entries.map Prod.fst
  · rw [Fifo.insert_of_mem there]
    exact h.insert_again there e
  · rw [Fifo.insert_of_not_mem there]
    exact h.insert (h.peek?_eq_none_iff.2 there) e

end Holds

/-- What every run keeps between a memo and the plain program: the memo holds
the entries of the list, each of which was inserted last under its key, and the
look-ups are counted alike. -/
structure Simulates (capacity : Option Nat) (actions : List Action) (m : Memo)
    (f : Fifo) :
    Prop where
  capacity_eq : m.capacity = capacity
  holds : m.Holds f.entries
  hits : m.hits = f.hits
  misses : m.misses = f.misses
  bound : ∀ c, capacity = some c → f.entries.length ≤ max c 1
  counted : m.hits + m.misses = actions.countP Action.isGet
  inserted : ∀ key e, (key, e) ∈ f.entries → ∃ before after,
    actions = before ++ .insert key e :: after ∧
      ∀ a ∈ after, a.rewrites key = false

namespace Simulates

variable {capacity : Option Nat} {actions : List Action} {f : Fifo}

theorem start (capacity : Option Nat) :
    Simulates capacity [] (.empty capacity) .empty := by
  refine ⟨rfl, .empty capacity, rfl, rfl, ?_, rfl, ?_⟩
  · intro c _
    exact Nat.zero_le _
  · intro key e mem
    cases mem

/-- An entry stays the last one under its key when another action does not touch
the key. -/
theorem inserted_append (h : Simulates capacity actions m f) {key : Text}
    {e : Entry} (mem : (key, e) ∈ f.entries) {a : Action}
    (spared : a.rewrites key = false) :
    ∃ before after, actions ++ [a] = before ++ .insert key e :: after ∧
      ∀ b ∈ after, b.rewrites key = false := by
  obtain ⟨before, after, rfl, later⟩ := h.inserted key e mem
  refine ⟨before, after ++ [a], by simp, ?_⟩
  intro b hb
  rcases List.mem_append.1 hb with hb | hb
  · exact later b hb
  · rw [List.mem_singleton.1 hb]
    exact spared

/-- A look-up changes at most the counts. -/
theorem look_up (h : Simulates capacity actions m f) {a : Action}
    (spared : ∀ key, a.rewrites key = false) {hits misses : Nat}
    (counted : hits + misses = m.hits + m.misses + if a.isGet then 1 else 0) :
    Simulates capacity (actions ++ [a]) { m with hits, misses }
      { f with hits, misses } := by
  refine ⟨h.capacity_eq, ⟨h.holds.order, h.holds.nodup, h.holds.table⟩, rfl,
    rfl, h.bound, ?_, ?_⟩
  · rw [List.countP_append, List.countP_singleton, ← h.counted]
    exact counted
  · intro key e mem
    exact h.inserted_append mem (spared key)

theorem get (h : Simulates capacity actions m f) (key : Text) :
    (m.act (.get key)).2 = (f.act capacity (.get key)).2 ∧
      Simulates capacity (actions ++ [.get key]) (m.act (.get key)).1
        (f.act capacity (.get key)).1 := by
  simp only [Memo.act, Fifo.act, Memo.count, h.holds.peek?_eq_lookup key]
  cases f.entries.lookup key with
  | some e =>
    refine ⟨rfl, ?_⟩
    rw [← h.hits, ← h.misses]
    exact h.look_up (fun _ => rfl)
      (show m.hits + 1 + m.misses = m.hits + m.misses + 1 by omega)
  | none =>
    refine ⟨rfl, ?_⟩
    rw [← h.hits, ← h.misses]
    exact h.look_up (fun _ => rfl) rfl

theorem peek (h : Simulates capacity actions m f) (key : Text) :
    (m.act (.peek key)).2 = (f.act capacity (.peek key)).2 ∧
      Simulates capacity (actions ++ [.peek key]) m f := by
  refine ⟨h.holds.peek?_eq_lookup key, ?_⟩
  have same : f = { f with hits := m.hits, misses := m.misses } := by
    rw [h.hits, h.misses]
  rw [same]
  exact h.look_up (fun _ => rfl) rfl

theorem insert (h : Simulates capacity actions m f) (key : Text) (e : Entry) :
    Simulates capacity (actions ++ [.insert key e]) (m.insert key e)
      { f with entries := Fifo.insert capacity key e f.entries } := by
  have counts : (m.insert key e).hits = m.hits ∧
      (m.insert key e).misses = m.misses := by
    unfold Memo.insert
    split <;> exact ⟨rfl, rfl⟩
  refine ⟨(capacity_insert m key e).trans h.capacity_eq, ?_,
    counts.1.trans h.hits, counts.2.trans h.misses, ?_, ?_, ?_⟩
  · rw [← h.capacity_eq]
    exact h.holds.insert_fifo key e
  · rintro c rfl
    exact Fifo.length_insert_le (h.bound c rfl)
  · rw [counts.1, counts.2, h.counted, List.countP_append]
    rfl
  · intro k e' mem
    rcases Fifo.mem_insert mem with same | ⟨old, other⟩
    · obtain ⟨rfl, rfl⟩ := Prod.mk.inj same
      exact ⟨actions, [], rfl, by simp⟩
    · exact h.inserted_append old (beq_eq_false_iff_ne.2 (Ne.symm other))

theorem clear (h : Simulates capacity actions m f) :
    Simulates capacity (actions ++ [.clear]) m.clear
      { f with entries := [] } := by
  refine ⟨h.capacity_eq, .clear m, h.hits, h.misses, ?_, ?_, ?_⟩
  · intro c _
    exact Nat.zero_le _
  · rw [List.countP_append]
    exact h.counted
  · intro key e mem
    cases mem

/-- Every action gets the same answer, and the memo holds the entries of the
list again. -/
theorem act (h : Simulates capacity actions m f) (a : Action) :
    (m.act a).2 = (f.act capacity a).2 ∧
      Simulates capacity (actions ++ [a]) (m.act a).1 (f.act capacity a).1 := by
  cases a with
  | get key => exact h.get key
  | peek key => exact h.peek key
  | insert key e => exact ⟨rfl, h.insert key e⟩
  | clear => exact ⟨rfl, h.clear⟩

end Simulates

/-- Over every run from an empty memo, a memo answers like one list of entries
under distinct keys, in the order in which the keys came, from which a new key
drops the oldest ones beyond the capacity. What can be seen of the memo is what
the list holds, its keys are those of its table without repetition, never more
than the capacity allows, and making room for a new key never comes to the end
of the keys. An entry that is found is the last one that was inserted under its
key, every counted look-up is a hit or a miss, and a look-up that does not count
changes nothing. -/
theorem refines_bounded_fifo (capacity : Option Nat) (actions : List Action) :
    ∃ m f answers, perform act (empty capacity) actions = (m, answers) ∧
      perform (Fifo.act capacity) .empty actions = (f, answers) ∧
      (∀ key, m.peek? key = f.entries.lookup key) ∧ m.size = f.entries.length ∧
      m.hits = f.hits ∧ m.misses = f.misses ∧ m.capacity = capacity ∧
      m.order = f.entries.map Prod.fst ∧ m.order.Nodup ∧
      m.order.Perm (m.table.map Prod.fst) ∧
      (∀ c, capacity = some c →
        m.size ≤ max c 1 ∧ runsDry (max c 1) m.order m.table = false) ∧
      m.hits + m.misses = actions.countP Action.isGet ∧
      (∀ key, (m.act (.peek key)).1 = m) ∧
      ∀ key e, m.peek? key = some e → ∃ before after,
        actions = before ++ .insert key e :: after ∧
          ∀ a ∈ after, a.rewrites key = false := by
  have related : (perform act (empty capacity) actions).2 =
        (perform (Fifo.act capacity) .empty actions).2 ∧
      Simulates capacity actions (perform act (empty capacity) actions).1
        (perform (Fifo.act capacity) .empty actions).1 := by
    apply perform_related (Simulates.start capacity)
    intro before a after _ m f h
    exact h.act a
  obtain ⟨answers, simulates⟩ := related
  have holds := simulates.holds
  refine ⟨_, _, _, rfl, Prod.ext rfl answers.symm, holds.peek?_eq_lookup,
    holds.size_eq, simulates.hits, simulates.misses, simulates.capacity_eq,
    holds.order, holds.order ▸ holds.nodup, ?_, ?_, simulates.counted,
    fun _ => rfl, ?_⟩
  · rw [holds.order]
    exact (holds.table.map Prod.fst).symm
  · intro c bounded
    refine ⟨?_, holds.runsDry_eq_false (by omega)⟩
    rw [holds.size_eq]
    exact simulates.bound c bounded
  · intro key e found
    exact simulates.inserted key e (holds.peek?_eq_some_iff.1 found)

/-- Three keys for a memo with room for two, the first one inserted twice. -/
def overfull : List Action :=
  [.insert ['a'] ⟨[], 1, [], 1⟩, .insert ['b'] ⟨[], 2, [], 2⟩,
   .insert ['a'] ⟨[], 5, [], 3⟩,
    .insert ['c'] ⟨[], 3, [], 4⟩]

/-- A key that is inserted again keeps its turn to be dropped. -/
theorem refines_bounded_fifo_sample :
    ∃ m answers, perform act (empty (some 2)) overfull = (m, answers) ∧
      m.order = [['b'], ['c']] ∧ m.size ≤ 2 ∧
      m.peek? ['b'] = some ⟨[], 2, [], 2⟩ ∧
      ∃ before after,
        overfull = before ++ .insert ['b'] ⟨[], 2, [], 2⟩ :: after ∧
        ∀ a ∈ after, a.rewrites ['b'] = false := by
  obtain ⟨m, f, answers, run, -, -, -, -, -, -, -, -, -, bound, -, -, last⟩ :=
    refines_bounded_fifo (some 2) overfull
  have order : (perform act (empty (some 2)) overfull).1.order =
      [['b'], ['c']] := by decide
  have found : (perform act (empty (some 2)) overfull).1.peek? ['b'] =
      some ⟨[], 2, [], 2⟩ := by
    decide
  rw [run] at order found
  exact ⟨m, answers, run, order, (bound 2 rfl).1, found, last _ _ found⟩

end Memo
end Worksheet

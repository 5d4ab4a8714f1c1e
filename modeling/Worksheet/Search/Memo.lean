import Worksheet.Text.Basic

/-!
# Memo of evaluations

A memo keeps evaluations under keys, and beside the table the order in which the
keys came. A new key beyond the capacity drops the oldest ones; a key that is
there keeps its place in the order and takes the new evaluation. Look-ups that
count are hits or misses, and clearing keeps these counts.
-/

namespace Worksheet

structure Entry where
  values : List Float
  fitness : Float
  objectives : List Float
  /-- The number of the evaluation, from one. -/
  iteration : Nat
  deriving DecidableEq

/-- Evaluations under keys, and the keys in the order in which they came, oldest
first. -/
structure Memo where
  table : List (Text × Entry)
  order : List Text
  capacity : Option Nat
  hits : Nat
  misses : Nat
  deriving DecidableEq

namespace Memo

def empty (capacity : Option Nat) : Memo := ⟨[], [], capacity, 0, 0⟩

/-- The entry under a key of a table. -/
def lookup? (key : Text) (table : List (Text × Entry)) : Option Entry :=
  (table.find? (·.1 == key)).map Prod.snd

def erase (key : Text) (table : List (Text × Entry)) : List (Text × Entry) :=
  table.filter (·.1 != key)

/-- The table with an entry under a key, in the place of the one that was
there. -/
def put (key : Text) (e : Entry) (table : List (Text × Entry)) :
    List (Text × Entry) :=
  (key, e) :: erase key table

def peek? (m : Memo) (key : Text) : Option Entry := lookup? key m.table

/-- The memo after a look-up that counts. -/
def count (m : Memo) (key : Text) : Memo :=
  if (m.peek? key).isSome then { m with hits := m.hits + 1 }
  else { m with misses := m.misses + 1 }

/-- Drops the oldest keys, with their entries, as long as the table has `limit`
entries. -/
def makeRoom (limit : Nat) :
    List Text → List (Text × Entry) → List Text × List (Text × Entry)
  | [], table => ([], table)
  | key :: order, table =>
    if limit ≤ table.length then makeRoom limit order (erase key table)
    else (key :: order, table)

/-- Keys and table with room for one entry more; a capacity of zero counts as
one. -/
def withRoom (m : Memo) : List Text × List (Text × Entry) :=
  match m.capacity with
  | some c => makeRoom (max c 1) m.order m.table
  | none => (m.order, m.table)

def insert (m : Memo) (key : Text) (e : Entry) : Memo :=
  if (m.peek? key).isSome then { m with table := put key e m.table }
  else
    let (order, table) := m.withRoom
    { m with order := order ++ [key], table := put key e table }

def clear (m : Memo) : Memo := { m with table := [], order := [] }

def size (m : Memo) : Nat := m.table.length

/-- The part of the counted look-ups that were hits; zero when there were
none. -/
def hitRate (m : Memo) : Float :=
  if m.hits + m.misses = 0 then 0
  else m.hits.toFloat / (m.hits + m.misses).toFloat

/-- A key is in the table when it has an entry. -/
theorem lookup?_isSome {key : Text} {table : List (Text × Entry)} :
    (lookup? key table).isSome ↔ key ∈ table.map Prod.fst := by
  simp [lookup?]

end Memo
end Worksheet

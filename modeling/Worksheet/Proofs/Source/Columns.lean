import Mathlib.Data.List.Nodup
import Worksheet.Proofs.Source.Variables

/-!
# Variables in columns

The declared values of a source may be kept as parallel columns of names,
values, units and origins, which are written in place by the position of a
name. The columns never differ in length, and their rows are the table of
the variables: the distinct names in the order of their first declarations,
each with what its last declaration says. Every name of them has a
declaration to which a value can be written.
-/

namespace Worksheet

open Text

/-! ## Writing to a table in place -/

namespace VariableTable

variable {x : Variable} {t : VariableTable} {name : Text}

theorem position?_eq_none_iff : t.position? name = none ↔ name ∉ t.names := by
  simp [position?, names, List.findIdx?_eq_none_iff]

theorem name_of_position? {i : Nat} (h : t.position? name = some i) :
    ∃ y, t[i]? = some y ∧ y.name = name := by
  obtain ⟨lt, found, -⟩ := List.findIdx?_eq_some_iff_getElem.1 h
  exact ⟨t[i], List.getElem?_eq_getElem lt, by simpa using found⟩

theorem upsert_of_position? {i : Nat} (h : t.position? x.name = some i) :
    upsert x t = t.set i x := by
  induction t generalizing i with
  | nil => cases h
  | cons y ys ih =>
    rw [position?, List.findIdx?_cons] at h
    by_cases same : y.name = x.name
    · simp only [same, beq_self_eq_true, if_true, Option.some.injEq] at h
      rw [upsert, if_pos same, ← h, List.set_cons_zero]
    · simp only [beq_iff_eq, same, if_false, Option.map_eq_some_iff] at h
      obtain ⟨j, hj, rfl⟩ := h
      rw [upsert, if_neg same, ih hj, List.set_cons_succ]

theorem upsert_of_notMem (h : x.name ∉ t.names) : upsert x t = t ++ [x] := by
  induction t with
  | nil => rfl
  | cons y ys ih =>
    simp only [names, List.map_cons, List.mem_cons, not_or] at h ih
    rw [upsert, if_neg (Ne.symm h.1), ih h.2, List.cons_append]

/-- A name that is there keeps its place, and another one comes last. -/
theorem names_upsert (x : Variable) (t : VariableTable) :
    (upsert x t).names = if x.name ∈ t.names then t.names
      else t.names ++ [x.name] := by
  split
  · next mem =>
    obtain ⟨i, hi⟩ := Option.ne_none_iff_exists'.1
      (mt position?_eq_none_iff.1 (not_not_intro mem))
    obtain ⟨y, there, same⟩ := name_of_position? hi
    obtain ⟨lt, rfl⟩ := List.getElem?_eq_some_iff.1 there
    -- What is written at the position has the name that stands there already.
    have lt' : i < t.names.length := by rwa [names, List.length_map]
    have kept : t.names[i] = x.name := by simpa [names] using same
    rw [upsert_of_position? hi, names, List.map_set, ← kept]
    exact List.set_getElem_self lt'
  · next fresh =>
      rw [upsert_of_notMem fresh, names, List.map_append, List.map_singleton]
      rfl

theorem ofList_append_singleton (xs : List Variable) (x : Variable) :
    ofList (xs ++ [x]) = upsert x (ofList xs) := by
  rw [ofList, List.foldl_append]
  rfl

/-- The names of a table are those that were written, each where it was written
first. -/
theorem names_ofList (xs : List Variable) :
    (ofList xs).names = (xs.map Variable.name).eraseDups := by
  induction xs using List.reverseRecOn with
  | nil => rfl
  | append_singleton xs x ih =>
    rw [ofList_append_singleton, names_upsert, ih, List.map_append,
      List.map_singleton, List.eraseDups_append, List.removeAll]
    split
    · next mem =>
      have written : x.name ∈ xs.map Variable.name := List.mem_eraseDups.1 mem
      rw [List.filter_cons_of_neg (by simpa using written)]
      simp
    · next fresh =>
      have unwritten : x.name ∉ xs.map Variable.name :=
        mt List.mem_eraseDups.2 fresh
      rw [List.filter_cons_of_pos (by simpa using unwritten)]
      simp [List.eraseDups_cons]

theorem nodup_names_ofList (xs : List Variable) : (ofList xs).names.Nodup := by
  induction xs using List.reverseRecOn with
  | nil => exact List.nodup_nil
  | append_singleton xs x ih =>
    rw [ofList_append_singleton, names_upsert]
    split
    · exact ih
    · next fresh =>
      rw [← List.concat_eq_append]
      exact ih.concat fresh

theorem find?_of_mem (nodup : t.names.Nodup) (mem : x ∈ t) :
    t.find? x.name = some x := by
  induction t with
  | nil => cases mem
  | cons y ys ih =>
    rw [names, List.map_cons, List.nodup_cons] at nodup
    rw [find?, List.find?_cons]
    rcases List.mem_cons.1 mem with rfl | later
    · simp
    · have other : y.name ≠ x.name := by
        intro same
        exact nodup.1 (same ▸ List.mem_map_of_mem later)
      rw [beq_false_of_ne other]
      exact ih nodup.2 later

theorem find?_eq_bind_position? (t : VariableTable) (name : Text) :
    t.find? name = (t.position? name).bind (t[·]?) :=
  List.find?_eq_bind_findIdx?_getElem?

end VariableTable

/-! ## Columns -/

/-- Variables as parallel columns: what stands at one position of them belongs
to one variable. -/
structure Columns where
  names : List Text
  values : List Float
  units : List Text
  origins : List Origin
  deriving DecidableEq

namespace Columns

def empty : Columns := ⟨[], [], [], []⟩

def position? (k : Columns) (name : Text) : Option Nat :=
  k.names.findIdx? (· == name)

/-- Writes a variable: at the position of its name in the other columns, or else
at the end of all. -/
def upsert (x : Variable) (k : Columns) : Columns :=
  match k.position? x.name with
  | some i =>
    { k with values := k.values.set i x.value, units := k.units.set i x.unit,
                       origins := k.origins.set i x.origin }
  | none =>
    ⟨k.names ++ [x.name], k.values ++ [x.value], k.units ++ [x.unit],
      k.origins ++ [x.origin]⟩

def value? (k : Columns) (name : Text) : Option Float :=
  (k.position? name).bind (k.values[·]?)

def unit? (k : Columns) (name : Text) : Option Text :=
  (k.position? name).bind (k.units[·]?)

/-- The rows of the columns, as far as all of them reach. -/
def entries (k : Columns) : List Variable :=
  (((k.names.zip k.values).zip k.units).zip k.origins).map
    fun (((name, value), unit), origin) =>
    ⟨name, value, unit, origin⟩

/-- All columns have the same length. -/
structure Even (k : Columns) : Prop where
  values : k.values.length = k.names.length
  units : k.units.length = k.names.length
  origins : k.origins.length = k.names.length

end Columns

namespace VariableTable

variable {t : VariableTable} {name : Text}

def columns (t : VariableTable) : Columns :=
  ⟨t.names, t.map Variable.value, t.map Variable.unit, t.map Variable.origin⟩

theorem position?_columns (t : VariableTable) (name : Text) :
    t.columns.position? name = t.position? name := by
  rw [Columns.position?, columns, names, List.findIdx?_map]
  rfl

/-- Writing in place by position is writing to the table. -/
theorem columns_upsert (x : Variable) (t : VariableTable) :
    (upsert x t).columns = t.columns.upsert x := by
  rw [Columns.upsert, position?_columns]
  cases h : t.position? x.name with
  | some i =>
    have there : x.name ∈ t.names := by
      by_contra fresh
      rw [position?_eq_none_iff.2 fresh] at h
      cases h
    have kept : (upsert x t).names = t.names := by
      rw [names_upsert, if_pos there]
    rw [columns, kept, upsert_of_position? h, List.map_set, List.map_set,
      List.map_set]
    rfl
  | none =>
    rw [upsert_of_notMem (position?_eq_none_iff.1 h)]
    simp [columns, names]

theorem even_columns (t : VariableTable) : t.columns.Even := by
  constructor <;> simp [columns, names]

theorem foldl_upsert_columns (xs : List Variable) (t : VariableTable) :
    xs.foldl (fun k x => Columns.upsert x k) t.columns =
      (xs.foldl (fun t x => upsert x t) t).columns := by
  induction xs generalizing t with
  | nil => rfl
  | cons x xs ih => rw [List.foldl_cons, List.foldl_cons, ← columns_upsert, ih]

theorem entries_columns (t : VariableTable) : t.columns.entries = t := by
  induction t with
  | nil => rfl
  | cons x t ih => exact congrArg (x :: ·) ih

theorem value?_columns (t : VariableTable) (name : Text) :
    t.columns.value? name = (t.find? name).map Variable.value := by
  rw [Columns.value?, position?_columns, find?_eq_bind_position?,
    Option.map_bind]
  congr 1
  funext i
  exact List.getElem?_map

theorem unit?_columns (t : VariableTable) (name : Text) :
    t.columns.unit? name = (t.find? name).map Variable.unit := by
  rw [Columns.unit?, position?_columns, find?_eq_bind_position?,
    Option.map_bind]
  congr 1
  funext i
  exact List.getElem?_map

end VariableTable

/-! ## What a source declares -/

/-- The variable that a statement declares, when it has a name and a value, and
is an input or stands behind a mark, or is a bare number and these are asked for
too. -/
def Statement.counted? (explicitOnly : Bool) (s : Statement) :
    Option Variable :=
  match s.name?, s.value?, s.kind with
  | some name, some value, .input => some ⟨name, value, s.unit, .explicit⟩
  | some name, some value, .joined => some ⟨name, value, s.unit, .explicit⟩
  | some name, some value, .literal =>
    if explicitOnly then none else some ⟨name, value, s.unit, .literal⟩
  | _, _, _ => none

theorem Statement.counted?_eq (explicitOnly : Bool) (s : Statement) :
    s.counted? explicitOnly =
      s.variable?.filter fun x => x.origin == .explicit || !explicitOnly := by
  cases s with
  | declared form name slot unit body =>
    cases h : (Statement.declared form name slot unit body).value? with
    | none =>
      have unvalued : (slot.bind fun s => Decimal.value? s.literal) = none := h
      simp [counted?, h, Statement.variable?, unvalued]
    | some value =>
      have valued :
          (slot.bind fun s => Decimal.value? s.literal) = some value := h
      cases form <;> cases explicitOnly <;>
        simp [counted?, h, Statement.variable?, valued, name?, kind, Form.kind,
          Form.origin, Statement.unit, Option.filter]
  | _ => rfl

namespace Vocabulary

/-- The variables that the statements of a source declare, in order. -/
def counted (v : Vocabulary) (explicitOnly : Bool) (source : Text) :
    List Variable :=
  (lines source).flatMap fun l =>
    (Line.read v l).statements.filterMap (Statement.counted? explicitOnly)

theorem declarations_eq (v : Vocabulary) (explicitOnly : Bool) (source : Text) :
    v.declarations explicitOnly source = v.counted explicitOnly source := by
  rw [declarations, counted, List.filter_flatMap]
  congr 1
  funext l
  rw [List.filter_filterMap]
  congr 1
  funext s
  exact (Statement.counted?_eq explicitOnly s).symm

/-- The columns of a source, which are written statement by statement. -/
def columns (v : Vocabulary) (explicitOnly : Bool) (source : Text) : Columns :=
  (lines source).foldl (fun k l =>
    (Line.read v l).statements.foldl
      (fun k s => (s.counted? explicitOnly).elim k k.upsert) k) .empty

/-- A statement that does not count leaves the columns. -/
theorem foldl_counted (explicitOnly : Bool) (ss : List Statement)
    (k : Columns) :
    ss.foldl (fun k s => (s.counted? explicitOnly).elim k k.upsert) k =
      (ss.filterMap (Statement.counted? explicitOnly)).foldl
        (fun k x => Columns.upsert x k) k := by
  induction ss generalizing k with
  | nil => rfl
  | cons s ss ih =>
    cases h : s.counted? explicitOnly with
    | none => rw [List.foldl_cons, ih, List.filterMap_cons_none h, h]; rfl
    | some x => rw [List.foldl_cons, ih, List.filterMap_cons_some h, h]; rfl

theorem columns_eq (v : Vocabulary) (explicitOnly : Bool) (source : Text) :
    v.columns explicitOnly source =
      (v.variableTable explicitOnly source).columns := by
  rw [variableTable, declarations_eq, VariableTable.ofList,
    ← VariableTable.foldl_upsert_columns, counted, List.foldl_flatMap, columns]
  simp only [foldl_counted]
  rfl

end Vocabulary

/-- What is declared last under a name. -/
def lastNamed? (declared : List Variable) (name : Text) : Option Variable :=
  (declared.filter (·.name == name)).getLast?

namespace LineTable

/-- A statement that declares a name has a place. -/
theorem exists_position? {t : LineTable} {r : LineRow} {s : Statement}
    {name : Text} (row : r ∈ t) (mem : s ∈ r.line.statements)
    (declares : s.declares name = true) :
    ∃ place, t.position? name = some place := by
  obtain ⟨c, there, rfl⟩ := List.mem_map.1 mem
  have found :
      (r.line.clauses.findIdx? (·.statement.declares name)).isSome = true := by
    rw [List.findIdx?_isSome, List.any_eq_true]
    exact ⟨c, there, declares⟩
  obtain ⟨j, hj⟩ := Option.isSome_iff_exists.1 found
  obtain ⟨before, after, rfl⟩ := List.append_of_mem row
  rw [← Option.isSome_iff_exists, position?, List.findSome?_isSome_iff]
  refine ⟨(r, before.length), ?_, ?_⟩
  · rw [List.mem_zipIdx_iff_getElem?]
    simp
  · dsimp only
    rw [hj]
    rfl

end LineTable

theorem Statement.declares_of_counted? {explicitOnly : Bool} {s : Statement}
    {x : Variable} (h : s.counted? explicitOnly = some x) :
    s.declares x.name = true := by
  rw [Statement.counted?_eq, Option.filter_eq_some_iff] at h
  have name := Statement.name?_of_variable? h.1
  cases s with
  | declared form other slot unit body =>
    obtain ⟨value, valued, rfl⟩ := Option.map_eq_some_iff.1 h.1
    cases slot with
    | none => cases valued
    | some slot => simp [declares, slot?, name?]
  | _ => cases h.1

namespace Vocabulary

/-- What is counted of a source has a place in its line table. -/
theorem exists_position?_of_counted {v : Vocabulary} {explicitOnly : Bool}
    {source : Text} {x : Variable} (mem : x ∈ v.counted explicitOnly source) :
    ∃ place, (LineTable.read v source).position? x.name = some place := by
  obtain ⟨l, line, there⟩ := List.mem_flatMap.1 mem
  obtain ⟨s, statement, counted⟩ := List.mem_filterMap.1 there
  obtain ⟨r, row, rfl⟩ := List.mem_map.1 line
  exact LineTable.exists_position? (List.mem_map_of_mem row) statement
    (Statement.declares_of_counted? counted)

/-- The columns of a source hold the distinct names that it declares, in the
order of their first declarations, and at the position of a name what is
declared last under it. They are even, so that their rows lose nothing, and
every name has a declaration to which a value can be written. -/
theorem columns_merge (v : Vocabulary) (explicitOnly : Bool) (source : Text) :
    (v.columns explicitOnly source).names =
      ((v.counted explicitOnly source).map Variable.name).eraseDups ∧
    (∀ (i : Nat) (name : Text),
      (v.columns explicitOnly source).names[i]? = some name →
      ∃ x, lastNamed? (v.counted explicitOnly source) name = some x ∧
        (v.columns explicitOnly source).values[i]? = some x.value ∧
        (v.columns explicitOnly source).units[i]? = some x.unit ∧
        (v.columns explicitOnly source).origins[i]? = some x.origin ∧
        ∃ place, (LineTable.read v source).position? name = some place) ∧
    (v.columns explicitOnly source).Even ∧
    (v.columns explicitOnly source).entries =
      v.variableTable explicitOnly source ∧
    ∀ name,
      (v.columns explicitOnly source).position? name =
        (v.variableTable explicitOnly source).position? name ∧
      (v.variableTable explicitOnly source).find? name =
        lastNamed? (v.counted explicitOnly source) name ∧
      (v.columns explicitOnly source).value? name =
        (lastNamed? (v.counted explicitOnly source) name).map Variable.value ∧
      (v.columns explicitOnly source).unit? name =
        (lastNamed? (v.counted explicitOnly source) name).map
          Variable.unit := by
  have last (name : Text) : (v.variableTable explicitOnly source).find? name =
      lastNamed? (v.counted explicitOnly source) name := by
    rw [variableTable, VariableTable.find?_ofList, declarations_eq, lastNamed?]
  have nodup : (v.variableTable explicitOnly source).names.Nodup :=
    VariableTable.nodup_names_ofList _
  rw [columns_eq]
  refine ⟨?_, ?_, VariableTable.even_columns _, VariableTable.entries_columns _,
    ?_⟩
  · rw [VariableTable.columns, variableTable, VariableTable.names_ofList,
      declarations_eq]
  · intro i name at_i
    simp only [VariableTable.columns, VariableTable.names,
      List.getElem?_map] at at_i ⊢
    obtain ⟨x, there, rfl⟩ := Option.map_eq_some_iff.1 at_i
    -- No other row has the name, so that the row is the one that is found by
    -- the name.
    have found := VariableTable.find?_of_mem nodup (List.mem_of_getElem? there)
    rw [last] at found
    have counted := List.mem_of_getLast? found
    refine ⟨x, found, ?_, ?_, ?_,
      exists_position?_of_counted (List.mem_filter.1 counted).1⟩ <;>
      rw [there] <;> rfl
  · intro name
    rw [VariableTable.position?_columns, VariableTable.value?_columns,
      VariableTable.unit?_columns, last]
    exact ⟨rfl, rfl, rfl, rfl⟩

/-- A source that declares `a` first as an input and last as a number behind a
mark. -/
def redeclaring : Text :=
  "a = ?\x7b1\x7dm\nn = 4\nb = ?\x7b2\x7dm';'a = 3 cm".toList

/-- A name that is declared again keeps its place and takes the later value and
unit. -/
theorem columns_merge_sample :
    (columns .builtIn false redeclaring).names = [['a'], ['n'], ['b']] ∧
      (columns .builtIn false redeclaring).values[0]? = some 3 ∧
      (columns .builtIn false redeclaring).units[0]? = some "cm".toList ∧
      ∃ place, (LineTable.read .builtIn redeclaring).position? ['a'] =
        some place := by
  obtain ⟨names, last, -⟩ := columns_merge .builtIn false redeclaring
  have listed :
      ((counted .builtIn false redeclaring).map Variable.name).eraseDups =
      [['a'], ['n'], ['b']] := by decide +kernel
  have latest : lastNamed? (counted .builtIn false redeclaring) ['a'] =
      some ⟨['a'], 3, "cm".toList, .explicit⟩ := by decide +kernel
  rw [listed] at names
  obtain ⟨x, found, value, unit, -, place⟩ := last 0 ['a'] (by rw [names]; rfl)
  rw [latest, Option.some.injEq] at found
  subst found
  exact ⟨names, value, unit, place⟩

end Vocabulary
end Worksheet

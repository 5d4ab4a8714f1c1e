import Worksheet.Proofs.Source.LeftSides

/-!
# The longest alias

Where a unit can stand in the code of a line, the longest of the aliases that
fit there is expanded, and where none fits the text stays. Two aliases of one
size that fit the same place have the same name. A table whose names are
distinct is therefore expanded in the same way in whatever order it lists its
aliases, although they are tried one after another.
-/

namespace Worksheet.UnitAlias

open Text Vocabulary

variable {enabled : UnitAlias → Prop} {aliases : List UnitAlias} {a : UnitAlias}
  {before s t : Text}

/-! ## What fits a place -/

/-- An alias that can be expanded where the text goes on with `s` behind
`before`, which is held backwards: a unit can stand there, and no word goes on
behind the alias. -/
structure Fits (enabled : UnitAlias → Prop) (before s : Text)
    (a : UnitAlias) : Prop where
  enabled : enabled a
  place : unitCanFollow before = true
  stands : ∃ rest, s = a.name ++ rest ∧ rest.head?.any isWordChar = false

/-- The second text is the first one with the longest of the aliases that fit
expanded, from the front on and wherever one fits; what precedes them is held
backwards. -/
inductive Longest (enabled : UnitAlias → Prop) : Text → Text → Text → Prop where
  | nil {before : Text} : Longest enabled before [] []
  | keep {before s t : Text} {c : Char}
    (none : ∀ a, ¬Fits enabled before (c :: s) a)
    (rest : Longest enabled (c :: before) s t) :
    Longest enabled before (c :: s) (c :: t)
  | expand {before s t : Text} {a : UnitAlias}
    (fits : Fits enabled before (a.name ++ s) a)
    (longest : ∀ b, Fits enabled before (a.name ++ s) b →
      b.name.size ≤ a.name.size)
    (rest : Longest enabled (a.name.reverse ++ before) s t) :
    Longest enabled before (a.name ++ s) (a.expansion ++ t)

/-- Two beginnings of one text that have the same size are the same. -/
theorem eq_of_append_eq_append {x y u w : Text} (join : x ++ u = y ++ w)
    (size : x.size = y.size) :
    x = y := by
  rcases List.append_eq_append_iff.1 join with ⟨m, rfl, -⟩ | ⟨m, rfl, -⟩
  · have none : m = [] :=
      Decimal.eq_nil_of_size_eq_zero (by simpa using size.symm)
    rw [none, List.append_nil]
  · have none : m = [] := Decimal.eq_nil_of_size_eq_zero (by simpa using size)
    rw [none, List.append_nil]

/-- The longest alias that fits is one alias, so that there is one way to expand
a text. -/
theorem Longest.unique
    (one : ∀ a b, enabled a → enabled b → a.name = b.name → a = b)
    (ne : ∀ a, enabled a → a.name ≠ []) (h : Longest enabled before s t)
    {t' : Text} (h' : Longest enabled before s t') : t = t' := by
  induction h generalizing t' with
  | nil =>
    generalize hu : ([] : Text) = u at h'
    cases h' with
    | nil => rfl
    | keep => cases hu
    | expand fits =>
      exact absurd (List.append_eq_nil_iff.1 hu.symm).1 (ne _ fits.enabled)
  | @keep before s t c none rest ih =>
    generalize hu : c :: s = u at h' none
    cases h' with
    | nil => cases hu
    | keep _ rest' =>
      obtain ⟨rfl, rfl⟩ := List.cons.inj hu
      rw [ih rest']
    | expand fits => exact absurd fits (none _)
  | @expand before s t a fits longest rest ih =>
    generalize hu : a.name ++ s = u at h' fits longest
    cases h' with
    | nil => exact absurd (List.append_eq_nil_iff.1 hu).1 (ne _ fits.enabled)
    | keep none => exact absurd fits (none _)
    | @expand _ s' t' b fits' longest' rest' =>
      -- Each of the two is at least as long as the other, and both begin the
      -- same text.
      have sizes : a.name.size = b.name.size :=
        Nat.le_antisymm (longest' _ fits) (longest _ fits')
      obtain rfl :=
        one _ _ fits.enabled fits'.enabled (eq_of_append_eq_append hu sizes)
      obtain rfl := List.append_cancel_left hu
      rw [ih rest']

/-! ## The order in which aliases are tried -/

theorem precedes_iff {a b : UnitAlias} :
    precedes a b = true ↔
      b.name.size < a.name.size ∨ a.name.size = b.name.size ∧
        a.name ≤ b.name := by
  simp [precedes]

theorem size_le_of_precedes {a b : UnitAlias} (h : precedes a b = true) :
    b.name.size ≤ a.name.size := by
  rcases precedes_iff.1 h with shorter | ⟨same, -⟩
  · exact shorter.le
  · exact same.ge

theorem precedes_trans (a b c : UnitAlias) (hab : precedes a b = true)
    (hbc : precedes b c = true) :
    precedes a c = true := by
  rw [precedes_iff] at *
  rcases hab with shorter | ⟨same, le⟩
  · rcases hbc with shorter' | ⟨same', -⟩
    · exact .inl (shorter'.trans shorter)
    · exact .inl (same' ▸ shorter)
  · rcases hbc with shorter' | ⟨same', le'⟩
    · exact .inl (same ▸ shorter')
    · exact .inr ⟨same.trans same', le.trans le'⟩

theorem precedes_total (a b : UnitAlias) :
    (precedes a b || precedes b a) = true := by
  rw [Bool.or_eq_true, precedes_iff, precedes_iff]
  rcases Nat.lt_trichotomy a.name.size b.name.size with shorter | same | longer
  · exact .inr (.inl shorter)
  · rcases le_total a.name b.name with le | le
    · exact .inl (.inr ⟨same, le⟩)
    · exact .inr (.inr ⟨same.symm, le⟩)
  · exact .inl (.inl longer)

theorem pairwise_enabled (aliases : List UnitAlias) (declared : List Text) :
    (UnitAlias.enabled aliases declared).Pairwise fun a b =>
      precedes a b = true :=
  List.pairwise_mergeSort precedes_trans precedes_total _

theorem mem_enabled {declared : List Text} :
    a ∈ UnitAlias.enabled aliases declared ↔
      a ∈ aliases ∧ a.name ≠ [] ∧ a.name ∉ declared := by
  simp [UnitAlias.enabled]

/-- Of sorted aliases, the first one that stands somewhere is the longest that
does. -/
theorem size_le_of_find?
    (sorted : aliases.Pairwise fun a b => precedes a b = true)
    (found : aliases.find? (·.standsAt s) = some a) {b : UnitAlias}
    (known : b ∈ aliases) (stands : b.standsAt s = true) :
    b.name.size ≤ a.name.size := by
  obtain ⟨-, earlier, later, rfl, passed⟩ :=
    List.find?_eq_some_iff_append.1 found
  rcases List.mem_append.1 known with mem | mem
  · have passedOver := passed b mem
    rw [stands] at passedOver
    cases passedOver
  · rcases List.mem_cons.1 mem with rfl | mem
    · exact le_rfl
    · have tail := (List.pairwise_append.1 sorted).2.1
      exact size_le_of_precedes (List.rel_of_pairwise_cons tail mem)

/-- Trying sorted aliases one after another expands the longest one that
fits. -/
theorem longest_expandAfter
    (sorted : aliases.Pairwise fun a b => precedes a b = true)
    (ne : ∀ a ∈ aliases, a.name ≠ []) (before s : Text) :
    Longest (· ∈ aliases) before s (expandAfter aliases before 0 s) := by
  -- An alias is passed over as a whole, so that the induction goes along the
  -- length of the text.
  generalize hn : s.length = n
  induction n using Nat.strong_induction_on generalizing before s with
  | _ n ih =>
    subst hn
    cases s with
    | nil => exact .nil
    | cons c s =>
      by_cases fit : ∃ a, Fits (· ∈ aliases) before (c :: s) a
      · obtain ⟨b, fits⟩ := fit
        have some : (aliases.find? (·.standsAt (c :: s))).isSome = true :=
          List.find?_isSome.2 ⟨b, fits.enabled, standsAt_iff.2 fits.stands⟩
        obtain ⟨a, found⟩ := Option.isSome_iff_exists.1 some
        have known := List.mem_of_find?_eq_some found
        have stands := List.find?_some found
        obtain ⟨rest, text, written⟩ :=
          expandAfter_of_find? (ne a known) fits.place found
        rw [written, text]
        refine .expand ⟨known, fits.place, text ▸ standsAt_iff.1 stands⟩ ?_
          (ih _ (length_lt_of_name (ne a known) text) _ rest rfl)
        intro b fits
        rw [← text] at fits
        exact size_le_of_find? sorted found fits.enabled
          (standsAt_iff.2 fits.stands)
      · rw [not_exists] at fit
        rw [expandAfter_of_none]
        · exact .keep fit (ih s.length (by simp) (c :: before) s rfl)
        · intro place
          rw [List.find?_eq_none]
          intro a known stands
          exact fit a ⟨known, place, standsAt_iff.1 stands⟩

/-! ## Sources -/

/-- The aliases of a table that may be expanded in a source: those that are no
name on a left side. -/
def Enabled (v : Vocabulary) (aliases : List UnitAlias) (source : Text)
    (a : UnitAlias) : Prop :=
  a ∈ aliases ∧ a.name ≠ [] ∧ a.name ∉ names v source

/-- The text is that of the rows with the longest aliases expanded in the code
of each row, in front of its comment. -/
inductive LongestRows (v : Vocabulary) (enabled : UnitAlias → Prop) :
    List Row → Text → Prop where
  | nil : LongestRows v enabled [] []
  | cons {r : Row} {rs : List Row} {code out : Text}
    (expanded : Longest enabled [] (Line.read v r.text).code code)
    (rest : LongestRows v enabled rs out) :
    LongestRows v enabled (r :: rs)
      (code ++ (Line.read v r.text).comment ++ out)

theorem LongestRows.unique {v : Vocabulary}
    (one : ∀ a b, enabled a → enabled b → a.name = b.name → a = b)
    (ne : ∀ a, enabled a → a.name ≠ []) {rs : List Row}
    (h : LongestRows v enabled rs s) (h' : LongestRows v enabled rs t) :
    s = t := by
  induction h generalizing t with
  | nil =>
    cases h'
    rfl
  | cons expanded _ ih =>
    cases h' with
    | cons expanded' rest' => rw [expanded.unique one ne expanded', ih rest']

theorem longestRows_flatMap {v : Vocabulary} {f : Text → Text}
    (h : ∀ s, Longest enabled [] s (f s)) (rs : List Row) :
    LongestRows v enabled rs
      (rs.flatMap fun r => f (Line.read v r.text).code ++
        (Line.read v r.text).comment) := by
  induction rs with
  | nil => exact .nil
  | cons r rs ih => exact .cons (h _) ih

theorem longest_self (none : ∀ a, ¬enabled a) (before s : Text) :
    Longest enabled before s s := by
  induction s generalizing before with
  | nil => exact .nil
  | cons c s ih =>
    exact .keep (fun a fits => none a fits.enabled) (ih (c :: before))

/-- The names that bar an alias are read with the ends of lines, which does not
change them. -/
theorem flatMap_names_rows (v : Vocabulary) (source : Text) :
    ((rows source).map fun r => Line.read v r.text).flatMap
      (fun l => l.statements.filterMap Statement.name?) = names v source := by
  rw [names, lines, List.flatMap_map, List.flatMap_map]
  congr 1
  funext r
  exact lineNames_append_ending v r.content r.ending

theorem longestRows_expand (v : Vocabulary) (aliases : List UnitAlias)
    (source : Text) :
    LongestRows v (Enabled v aliases source) (rows source)
      (expand v aliases source) := by
  have known : (· ∈ UnitAlias.enabled aliases (names v source)) =
      Enabled v aliases source := by
    funext a
    exact propext mem_enabled
  dsimp only [expand]
  rw [flatMap_names_rows]
  split
  · next none =>
    rw [List.isEmpty_iff] at none
    rw [none] at known
    have idle : ∀ a, ¬Enabled v aliases source a := by
      simp [← known]
    have same := longestRows_flatMap (v := v) (f := id) (longest_self idle [])
      (rows source)
    have text (r : Row) :
        (Line.read v r.text).code ++ (Line.read v r.text).comment = r.text :=
      Line.text_read v r.text
    simpa only [id, text, flatMap_text_rows] using same
  · rw [List.flatMap_map]
    apply longestRows_flatMap
    rw [← known]
    exact longest_expandAfter (pairwise_enabled aliases _)
      (fun a ha => (mem_enabled.1 ha).2.1) []

/-- Wherever an alias is expanded it is the longest one that fits there, and a
table with distinct names may list its aliases in any order. -/
theorem expand_longest_alias (v : Vocabulary) {aliases : List UnitAlias}
    (distinct : (aliases.map UnitAlias.name).Nodup) (source : Text) :
    LongestRows v (Enabled v aliases source) (rows source)
      (expand v aliases source) ∧
      ∀ other, other.Perm aliases →
        expand v other source = expand v aliases source := by
  have expanded := longestRows_expand v aliases source
  refine ⟨expanded, ?_⟩
  intro other perm
  have same : Enabled v other source = Enabled v aliases source := by
    funext a
    rw [Enabled, Enabled, perm.mem_iff]
  have expanded' := longestRows_expand v other source
  rw [same] at expanded'
  apply expanded'.unique _ (fun a enabled => enabled.2.1) expanded
  intro a b enabled enabled' name
  exact List.inj_on_of_nodup_map distinct enabled.1 enabled'.1 name

/-- Of two aliases that begin alike the longer one is expanded, and the shorter
one where a word goes on behind the longer one; a name on a left side is left
alone. -/
theorem expand_longest_alias_sample :
    expand .builtIn [⟨['k'], ['K']⟩, ⟨"k·m".toList, ['M']⟩, ⟨['b'], ['B']⟩]
        "a = 3k·m + 2 k·m2 + 1b\nb = 4k #3k".toList =
      "a = 3M + 2 K·m2 + 1b\nb = 4K #3k".toList := by
  obtain ⟨-, reordered⟩ := @expand_longest_alias .builtIn
    [⟨"k·m".toList, ['M']⟩, ⟨['b'], ['B']⟩, ⟨['k'], ['K']⟩] (by decide)
    "a = 3k·m + 2 k·m2 + 1b\nb = 4k #3k".toList
  have ordered :
      UnitAlias.enabled [⟨"k·m".toList, ['M']⟩, ⟨['b'], ['B']⟩, ⟨['k'], ['K']⟩]
        [['a'], ['b']] = [⟨"k·m".toList, ['M']⟩, ⟨['k'], ['K']⟩] := by cbv
  have left : names .builtIn "a = 3k·m + 2 k·m2 + 1b\nb = 4k #3k".toList =
      [['a'], ['b']] := by
    decide +kernel
  rw [reordered _ (by decide)]
  dsimp only [expand]
  rw [flatMap_names_rows, left, ordered]
  decide +kernel

end Worksheet.UnitAlias

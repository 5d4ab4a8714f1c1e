import Mathlib.Data.List.Forall2
import Worksheet.Proofs.Source.Grammar
import Worksheet.Source.UnitAlias

/-!
# Names under the expansion of aliases

An alias is expanded behind a number or an input in braces. A text in which that
happens in front of an assignment sign is no name before the expansion and none
after it, unless a prime mark stands right before the number: the prime mark
belongs to a name and not to a word, so that the number is taken for one of its
own. A segment is therefore read with the same name before and after its
expansion.
-/

namespace Worksheet.UnitAlias

open Text Vocabulary

/-! ## Expansions as a relation -/

/-- The second text is the first one with some aliases expanded that stand where
a unit can; what precedes them is held backwards. -/
inductive Expands (aliases : List UnitAlias) : Text → Text → Text → Prop where
  | nil {before : Text} : Expands aliases before [] []
  | keep {before s t : Text} {c : Char}
    (rest : Expands aliases (c :: before) s t) :
    Expands aliases before (c :: s) (c :: t)
  | expand {before s t : Text} {a : UnitAlias} (known : a ∈ aliases)
    (place : unitCanFollow before = true)
    (rest : Expands aliases (a.name.reverse ++ before) s t) :
    Expands aliases before (a.name ++ s) (a.expansion ++ t)

variable {aliases : List UnitAlias} {before s t : Text}

/-- Of an alias that is passed over nothing is written. -/
theorem expandAfter_covered (aliases : List UnitAlias) (before front s : Text) :
    expandAfter aliases before front.length (front ++ s) =
      expandAfter aliases (front.reverse ++ before) 0 s := by
  induction front generalizing before with
  | nil => rfl
  | cons c front ih =>
    rw [List.length_cons, List.cons_append, expandAfter, ih]
    simp

theorem standsAt_iff {a : UnitAlias} :
    a.standsAt s = true ↔ ∃ rest, s = a.name ++ rest ∧
      rest.head?.any isWordChar = false := by
  rw [standsAt]
  cases h : after? a.name s with
  | none =>
    simp only [Bool.false_eq_true, false_iff, not_exists, not_and]
    rintro rest rfl
    rw [after?_eq_some_iff.2 rfl] at h
    cases h
  | some rest =>
    obtain rfl := after?_eq_some_iff.1 h
    simp

/-- Where an alias stands, its expansion is written and its name is passed
over. -/
theorem expandAfter_of_find? {a : UnitAlias} (ne : a.name ≠ [])
    (place : unitCanFollow before = true)
    (found : aliases.find? (·.standsAt s) = some a) :
    ∃ rest, s = a.name ++ rest ∧
      expandAfter aliases before 0 s =
        a.expansion ++ expandAfter aliases
          (a.name.reverse ++ before) 0 rest := by
  have stands := List.find?_some found
  obtain ⟨rest, rfl, -⟩ := standsAt_iff.1 stands
  refine ⟨rest, rfl, ?_⟩
  obtain ⟨c, name, hname⟩ := List.exists_cons_of_ne_nil ne
  rw [hname, List.cons_append] at found ⊢
  rw [expandAfter, if_pos place, found]
  dsimp only
  rw [hname, List.length_cons, Nat.add_sub_cancel, expandAfter_covered]
  simp

theorem expandAfter_of_none {c : Char}
    (none : unitCanFollow before = true →
      aliases.find? (·.standsAt (c :: s)) = none) :
    expandAfter aliases before 0 (c :: s) =
      c :: expandAfter aliases (c :: before) 0 s := by
  rw [expandAfter]
  by_cases place : unitCanFollow before = true
  · rw [if_pos place, none place]
  · rw [if_neg place]

/-- A name that is passed over makes the text shorter. -/
theorem length_lt_of_name {a : UnitAlias} {rest : Text} (ne : a.name ≠ [])
    (text : s = a.name ++ rest) :
    rest.length < s.length := by
  have positive := List.length_pos_of_ne_nil ne
  rw [text, List.length_append]
  omega

theorem expands_expandAfter (ne : ∀ a ∈ aliases, a.name ≠ [])
    (before s : Text) :
    Expands aliases before s (expandAfter aliases before 0 s) := by
  generalize hn : s.length = n
  induction n using Nat.strong_induction_on generalizing before s with
  | _ n ih =>
    subst hn
    cases s with
    | nil => exact .nil
    | cons c s =>
      by_cases fit : unitCanFollow before = true ∧
        (aliases.find? (·.standsAt (c :: s))).isSome
      · obtain ⟨a, found⟩ := Option.isSome_iff_exists.1 fit.2
        have known := List.mem_of_find?_eq_some found
        obtain ⟨rest, text, written⟩ :=
          expandAfter_of_find? (ne a known) fit.1 found
        rw [written, text]
        exact .expand known fit.1
          (ih _ (length_lt_of_name (ne a known) text) _ rest rfl)
      · rw [expandAfter_of_none]
        · exact .keep (ih s.length (by simp) (c :: before) s rfl)
        · intro place
          simpa [place] using fit

/-! ## Where a unit can stand -/

/-- What stands right before a unit. -/
def endsBeforeUnit (c : Char) : Bool :=
  c == ' ' || c == '\t' || c == '}' || isNumberChar c

theorem head?_of_unitCanFollow (h : unitCanFollow before = true) :
    before.head?.any endsBeforeUnit = true := by
  cases before with
  | nil => exact absurd h (by decide)
  | cons c before =>
    rw [List.head?_cons, Option.any_some, endsBeforeUnit]
    by_contra other
    simp only [Bool.or_eq_true, beq_iff_eq, not_or, Bool.not_eq_true] at other
    obtain ⟨⟨⟨space, tab⟩, brace⟩, number⟩ := other
    have gap : (c :: before).dropWhile (fun c => c == ' ' || c == '\t') =
        c :: before := by
      simp [space, tab]
    rw [unitCanFollow, gap] at h
    split at h
    · next heq => exact brace (List.cons.inj heq).1
    · rw [List.takeWhile_cons] at h
      split at h
      · simp [number] at h
      · simp at h

theorem not_unitCanFollow_of_head {c : Char} (h : endsBeforeUnit c = false)
    (before : Text) :
    unitCanFollow (c :: before) = false := by
  rw [← Bool.not_eq_true]
  intro place
  have last := head?_of_unitCanFollow place
  rw [List.head?_cons, Option.any_some, h] at last
  cases last

/-- Text behind a character behind which no unit stands begins with the same
character as before. -/
theorem Expands.head?_eq {c : Char} (h : Expands aliases (c :: before) s t)
    (apart : endsBeforeUnit c = false) : s.head? = t.head? := by
  cases h with
  | nil => rfl
  | keep => rfl
  | expand _ place _ =>
    rw [not_unitCanFollow_of_head apart] at place
    cases place

/-- A character that no alias holds is a place where an expanded text is cut. -/
theorem Expands.of_append {c : Char} (free : ∀ a ∈ aliases, c ∉ a.name)
    {x y : Text} (h : Expands aliases before (x ++ c :: y) t) :
    ∃ x' y', t = x' ++ c :: y' ∧ Expands aliases before x x' ∧
      Expands aliases (c :: (x.reverse ++ before)) y y' := by
  generalize hs : x ++ c :: y = s at h
  induction h generalizing x with
  | nil => simp at hs
  | @keep before s t d rest ih =>
    cases x with
    | nil =>
      obtain ⟨rfl, rfl⟩ := List.cons.inj hs
      exact ⟨[], t, rfl, .nil, rest⟩
    | cons e x =>
      obtain ⟨rfl, join⟩ := List.cons.inj hs
      obtain ⟨x', y', rfl, front, back⟩ := ih join
      exact ⟨e :: x', y', rfl, .keep front, by simpa using back⟩
  | @expand before s t a known place rest ih =>
    obtain ⟨x, rfl⟩ : ∃ x', x = a.name ++ x' := by
      rcases List.append_eq_append_iff.1 hs with ⟨m, hname, hs⟩ | ⟨m, hx, -⟩
      · cases m with
        | nil => exact ⟨[], by simpa using hname.symm⟩
        | cons d m =>
          obtain ⟨rfl, -⟩ := List.cons.inj hs
          exact absurd (by simp [hname]) (free a known)
      · exact ⟨m, hx⟩
    rw [List.append_assoc] at hs
    obtain ⟨x', y', rfl, front, back⟩ := ih (List.append_cancel_left hs)
    exact ⟨a.expansion ++ x', y', by simp, .expand known place front,
      by simpa using back⟩

/-! ## Left sides -/

/-- Whether no prime mark stands right before a digit. -/
def primesApart : Text → Bool
  | prime :: digit :: s =>
    !((prime == '′' || prime == '″') && digit.isDigit) &&
      primesApart (digit :: s)
  | _ => true

theorem primesApart_of_append {x y : Text} (h : primesApart (x ++ y) = true) :
    primesApart x = true := by
  induction x with
  | nil => rfl
  | cons prime x ih =>
    cases x with
    | nil => rfl
    | cons digit x =>
      rw [List.cons_append, List.cons_append, primesApart,
        Bool.and_eq_true] at h
      rw [primesApart, Bool.and_eq_true]
      exact ⟨h.1, ih h.2⟩

theorem not_isDigit_of_primesApart {front back : Text} {prime digit : Char}
    (h : primesApart (front ++ prime :: digit :: back) = true)
    (hprime : prime = '′' ∨ prime = '″') :
    digit.isDigit = false := by
  induction front with
  | nil =>
    rw [List.nil_append, primesApart, Bool.and_eq_true] at h
    rcases hprime with rfl | rfl <;> simpa using h.1
  | cons c front ih =>
    apply ih
    cases hrest : front ++ prime :: digit :: back with
    | nil => rfl
    | cons d rest =>
      rw [List.cons_append, hrest, primesApart, Bool.and_eq_true] at h
      exact h.2

theorem isNameChar_of_isName {s : Text} (h : isName s = true) :
    ∀ c ∈ s, isNameChar c = true := by
  cases s with
  | nil => simp
  | cons d s =>
    rw [isName, Bool.and_eq_true, List.all_eq_true] at h
    intro c hc
    rcases List.mem_cons.1 hc with rfl | hc
    · exact isNameChar_of_isNameStart h.1
    · exact h.2 c hc

theorem eq_of_isNumberChar {f : Char → Bool} {b : Bool} (point : f '.' = b)
    (digits : ∀ n < 58, 48 ≤ n → f (Char.ofNat n) = b) {c : Char}
    (h : isNumberChar c = true) :
    f c = b := by
  rw [isNumberChar, Bool.or_eq_true, beq_iff_eq] at h
  rcases h with digit | rfl
  · exact eq_of_isDigit digits digit
  · exact point

/-- What stands in front of the segments of a line: nothing, or a mark. -/
def AtMark (older : Text) : Prop := older.head?.all (· == '\'') = true

theorem AtMark.eq_quote {older : Text} (mark : AtMark older) {c : Char}
    {rest : Text} (h : older = c :: rest) : c = '\'' := by
  simpa [AtMark, h] using mark

section

variable {older : Text} (mark : AtMark older) {p : Char → Bool}
  (stop : p '\'' = false) (x : Text)

include mark stop

theorem AtMark.dropWhile_append :
    (x ++ older).dropWhile p = x.dropWhile p ++ older := by
  induction x with
  | nil =>
    cases older with
    | nil => rfl
    | cons c rest => simp [mark.eq_quote rfl, stop]
  | cons c x ih =>
    rw [List.cons_append, List.dropWhile_cons, List.dropWhile_cons]
    split
    · exact ih
    · rfl

theorem AtMark.takeWhile_append : (x ++ older).takeWhile p = x.takeWhile p := by
  induction x with
  | nil =>
    cases older with
    | nil => rfl
    | cons c rest => simp [mark.eq_quote rfl, stop]
  | cons c x ih =>
    rw [List.cons_append, List.takeWhile_cons, List.takeWhile_cons, ih]

end

/-- Whether a character belongs to a word or to a number. -/
def isTokenChar (c : Char) : Bool := isWordChar c || c == '.'

/-- A unit can stand behind a brace, or behind a word that begins like a
number. -/
theorem exists_of_unitCanFollow {older q : Text} (mark : AtMark older)
    (place : unitCanFollow (q.reverse ++ older) = true) :
    '}' ∈ q ∨ ∃ front d back, q = front ++ d :: back ∧ isNumberChar d = true ∧
      front.getLast?.any isTokenChar = false := by
  have parts := List.takeWhile_append_dropWhile
    (p := fun c => c == ' ' || c == '\t') (l := q.reverse)
  rw [unitCanFollow, mark.dropWhile_append (by decide)] at place
  generalize q.reverse.takeWhile (fun c => c == ' ' || c == '\t') =
    space at parts
  generalize q.reverse.dropWhile (fun c => c == ' ' || c == '\t') =
    core at parts place
  split at place
  · next inside heq =>
    left
    cases core with
    | nil => exact absurd (mark.eq_quote heq) (by decide)
    | cons c core =>
      obtain ⟨rfl, -⟩ := List.cons.inj heq
      rw [← List.mem_reverse, ← parts]
      simp
  · right
    have token :
        (core ++ older).takeWhile isTokenChar = core.takeWhile isTokenChar :=
      mark.takeWhile_append (by decide +kernel) core
    have last :
        (core.takeWhile isTokenChar).getLast?.any isNumberChar = true := by
      rw [← token]
      exact (Bool.and_eq_true_iff.1 place).2
    obtain ⟨d, hd, number⟩ := (Option.any_eq_true _ _).1 last
    obtain ⟨init, word⟩ := List.getLast?_eq_some_iff.1 hd
    -- Read backwards, the word ends where its first character `d` stands in the
    -- text.
    have whole := List.takeWhile_append_dropWhile (p := isTokenChar) (l := core)
    have stop := head?_dropWhile_any isTokenChar core
    rw [word] at whole
    generalize core.dropWhile isTokenChar = more at whole stop
    refine ⟨more.reverse, d, init.reverse ++ space.reverse, ?_, number,
      by rwa [List.getLast?_reverse]⟩
    rw [← whole] at parts
    have turned := congrArg List.reverse parts
    simpa using turned.symm

/-- In front of a place where a unit can stand there is no beginning of a name,
unless a prime mark precedes the number. -/
theorem not_isName_of_unitCanFollow {older q : Text} (mark : AtMark older)
    (apart : primesApart q = true)
    (place : unitCanFollow (q.reverse ++ older) = true) (r : Text) :
    isName (trim (q ++ r)) = false := by
  rw [← Bool.not_eq_true]
  intro named
  have chars := isNameChar_of_isName named
  rcases exists_of_unitCanFollow mark place with
    brace | ⟨front, d, back, rfl, number, stop⟩
  · have kept : '}' ∈ trim (q ++ r) := by
      obtain ⟨x, y, rfl⟩ := List.append_of_mem brace
      rw [List.append_assoc, List.cons_append, trim_append_cons (by decide)]
      simp
    exact absurd (chars _ kept) (by decide)
  · have shown : isBlank d = false :=
      eq_of_isNumberChar (by decide) (by decide) number
    rw [List.append_assoc, List.cons_append, trim_append_cons shown]
      at named chars
    cases core : (trimStart front).getLast? with
    | none =>
      have start : isNameStart d = false :=
        eq_of_isNumberChar (by decide) (by decide) number
      rw [List.getLast?_eq_none_iff.1 core, List.nil_append, isName,
        start] at named
      cases named
    | some x =>
      obtain ⟨core', hcore⟩ := List.getLast?_eq_some_iff.1 core
      obtain ⟨margin, hfront⟩ := trimStart_isSuffix front
      rw [hcore] at hfront chars
      have nameChar : isNameChar x = true := chars x (by simp)
      have digitChar : isNameChar d = true := chars d (by simp)
      rw [← hfront, ← List.append_assoc, List.getLast?_concat,
        Option.any_some] at stop
      have prime : x = '′' ∨ x = '″' := by
        simp only [isTokenChar, isWordChar, Bool.or_eq_false_iff] at stop
        simp only [isNameChar, stop, Bool.false_or, Bool.or_eq_true,
          beq_iff_eq] at nameChar
        exact nameChar
      have split : front ++ d :: back = margin ++ core' ++ x :: d :: back := by
        simp [← hfront]
      have digit := not_isDigit_of_primesApart (split ▸ apart) prime
      rw [isNumberChar, digit, Bool.false_or, beq_iff_eq] at number
      subst number
      exact absurd digitChar (by decide)

/-! ## Assignment signs -/

/-- An alias that touches nothing at which a line is cut: the ends of lines,
their comments and marks, and the signs of assignment and comparison. -/
structure Inert (a : UnitAlias) : Prop where
  name : ∀ c ∈ a.name, comparesBefore c = false ∧ c ≠ '\'' ∧ c ≠ '\n' ∧ c ≠ '\r'
  expansion : ∀ c ∈ a.expansion,
    comparesBefore c = false ∧ beginsComment c = false ∧ c ≠ '\n' ∧ c ≠ '\r'

theorem not_isEquals_of_not_comparesBefore {c : Char}
    (h : comparesBefore c = false) :
    isEquals c = false := by
  simp only [comparesBefore, Bool.or_eq_false_iff] at h
  exact h.1.1.1.1.1

/-- Characters that are no equals signs are passed over. -/
theorem assignmentsAfter_append {x : Text} (free : ∀ c ∈ x, isEquals c = false)
    (before s : Text) :
    assignmentsAfter before (x ++ s) =
      assignmentsAfter (x.reverse ++ before) s := by
  induction x generalizing before with
  | nil => rfl
  | cons c x ih =>
    rw [List.cons_append, assignmentsAfter, free c List.mem_cons_self]
    simpa using ih (fun d hd => free d (List.mem_cons_of_mem c hd))
      (c :: before)

/-- Two texts are the same, or go on differently from a place where a unit can
stand. -/
def Agree (older x y : Text) : Prop :=
  x = y ∨ ∃ q r r', x = q ++ r ∧ y = q ++ r' ∧
    unitCanFollow (q.reverse ++ older) = true

theorem Agree.append {older x y : Text} (h : Agree older x y) (u : Text) :
    Agree older (x ++ u) (y ++ u) := by
  rcases h with rfl | ⟨q, r, r', rfl, rfl, place⟩
  · exact .inl rfl
  · exact .inr ⟨q, r ++ u, r' ++ u, by simp, by simp, place⟩

/-- From a place where a unit can stand, two texts that agree may go on
differently. -/
theorem Agree.depart {older x y : Text} (h : Agree older x y)
    (place : unitCanFollow (x.reverse ++ older) = true) (u u' : Text) :
    Agree older (x ++ u) (y ++ u') := by
  rcases h with rfl | ⟨q, r, r', rfl, rfl, place⟩
  · exact .inr ⟨x, u, u', rfl, rfl, place⟩
  · exact .inr ⟨q, r ++ u, r' ++ u', by simp, by simp, place⟩

theorem head?_any_append {p : Char → Bool} {u x : Text}
    (hu : ∀ c ∈ u, p c = false) (hx : x.head?.any p = false) :
    (u.reverse ++ x).head?.any p = false := by
  cases hrev : u.reverse with
  | nil => exact hx
  | cons c u' => exact hu c (List.mem_reverse.1 (by simp [hrev]))

/-- A sign of comparison does not stand right before a unit. -/
theorem not_comparesBefore_of_unitCanFollow {older x : Text}
    (place : unitCanFollow (x ++ older) = true) :
    x.head?.any comparesBefore = false := by
  cases x with
  | nil => rfl
  | cons c x =>
    have last := head?_of_unitCanFollow place
    simp only [List.cons_append, List.head?_cons, Option.any_some,
      endsBeforeUnit, Bool.or_eq_true, beq_iff_eq] at last ⊢
    rcases last with ((rfl | rfl) | rfl) | number
    · decide
    · decide
    · decide
    · exact eq_of_isNumberChar (by decide) (by decide) number

/-- The same signs assign before and after an expansion, behind left sides that
agree. -/
theorem Expands.assignmentsAfter (inert : ∀ a ∈ aliases, a.Inert)
    {older x y : Text} (h : Expands aliases (x ++ older) s t)
    (ends : x.head?.any comparesBefore = y.head?.any comparesBefore)
    (agree : Agree older x.reverse y.reverse) :
    List.Forall₂ (fun a b => Agree older a.left b.left) (assignmentsAfter x s)
      (assignmentsAfter y t) := by
  generalize hbefore : x ++ older = before at h
  induction h generalizing x y with
  | nil => exact .nil
  | @keep before s t c rest ih =>
    subst hbefore
    have later :=
      @ih (c :: x) (c :: y) rfl (by simpa using agree.append [c]) rfl
    rw [Vocabulary.assignmentsAfter, Vocabulary.assignmentsAfter, ends]
    by_cases sign : isEquals c = true
    · have apart : endsBeforeUnit c = false := by
        simp only [isEquals, Bool.or_eq_true, beq_iff_eq] at sign
        rcases sign with rfl | rfl <;> decide
      rw [rest.head?_eq apart]
      split
      · exact .cons agree later
      · exact later
    · simpa [sign] using later
  | @expand before s t a known place rest ih =>
    subst hbefore
    have compares := not_comparesBefore_of_unitCanFollow place
    have name := fun c hc => ((inert a known).name c hc).1
    have expansion := fun c hc => ((inert a known).expansion c hc).1
    rw [assignmentsAfter_append fun c hc =>
      not_isEquals_of_not_comparesBefore (name c hc),
      assignmentsAfter_append fun c hc =>
        not_isEquals_of_not_comparesBefore (expansion c hc)]
    apply ih
    · rw [head?_any_append name compares,
        head?_any_append expansion (ends ▸ compares)]
    · have departed :=
        agree.depart (by rwa [List.reverse_reverse]) a.name a.expansion
      simpa using departed
    · rw [List.append_assoc]

/-- Left sides that agree are the same name or no names. -/
theorem Agree.isName_iff {older x y : Text} (h : Agree older x y)
    (mark : AtMark older) (apart : primesApart x = true) (name : Text) :
    (trim x = name ∧ isName name = true) ↔
      trim y = name ∧ isName name = true := by
  rcases h with rfl | ⟨q, r, r', rfl, rfl, place⟩
  · rfl
  · have unnamed (r : Text) : ¬(trim (q ++ r) = name ∧ isName name = true) := by
      rintro ⟨rfl, named⟩
      rw [not_isName_of_unitCanFollow mark
        (primesApart_of_append apart) place r] at named
      cases named
    simp [unnamed]

/-- On no left side of a text a prime mark stands right before a digit. -/
def LeftsApart (s : Text) : Prop :=
  ∀ a ∈ assignments s, primesApart a.left = true

/-- A segment names the same before and after an expansion. -/
theorem Expands.names_iff (inert : ∀ a ∈ aliases, a.Inert) {older : Text}
    (mark : AtMark older) (apart : LeftsApart s) (h : Expands aliases older s t)
    (name : Text) :
    (∃ right, Names s name right) ↔ ∃ right, Names t name right := by
  have cuts :=
    Expands.assignmentsAfter inert (x := []) (y := []) h rfl (.inl rfl)
  rw [← assignments, ← assignments] at cuts
  simp only [Vocabulary.names_iff]
  rw [LeftsApart] at apart
  generalize assignments s = as at cuts apart
  generalize assignments t = bs at cuts
  cases cuts with
  | nil => simp
  | @cons a b as bs agree rest =>
    have same := agree.isName_iff mark (apart a List.mem_cons_self) name
    obtain ⟨l, c, r⟩ := a
    obtain ⟨l', c', r'⟩ := b
    cases rest with
    | nil => simpa using same
    | cons => simp

/-- An expansion keeps the name of a segment. -/
theorem Expands.name?_classify (inert : ∀ a ∈ aliases, a.Inert) {older : Text}
    (mark : AtMark older) (apart : LeftsApart s) (h : Expands aliases older s t)
    (v : Vocabulary) (joined : Bool) :
    (v.classify joined t).name? = (v.classify joined s).name? := by
  ext name
  rw [(classify_grammatical v joined s).name,
    (classify_grammatical v joined t).name]
  exact (h.names_iff inert mark apart name).symm

end Worksheet.UnitAlias

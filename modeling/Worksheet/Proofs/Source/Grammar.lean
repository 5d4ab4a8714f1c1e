import Mathlib.Data.List.Basic
import Worksheet.Proofs.Source.Line

/-!
# Grammar of segments

A segment names something when it has one assignment sign with a name before it.
What it says about the name is told by the shape of its right side: a question
mark with an optional pair of braces and an optional unit, a number with an
optional unit, an expression, or anything else. Reading a line accepts just
these shapes.
-/

namespace Worksheet

open Text Decimal

namespace Vocabulary

variable {v : Vocabulary}

/-! ## Right sides -/

/-- A unit or nothing. -/
def OptionalUnit (v : Vocabulary) (s : Text) : Prop := s = [] ∨ v.UnitToken s

/-- An input: a question mark, then braces or not, then a unit or not, with
blanks between. -/
inductive Marked (v : Vocabulary) : Text → Prop
  | braced {gap inside gap' unit : Text} (blank : isAllBlank gap = true)
    (closed : '}' ∉ inside)
    (blank' : isAllBlank gap' = true) (optional : v.OptionalUnit unit) :
    v.Marked ('?' :: (gap ++ '{' :: (inside ++ '}' :: (gap' ++ unit))))
  | plain {gap unit : Text} (blank : isAllBlank gap = true)
    (optional : v.OptionalUnit unit) :
    v.Marked ('?' :: (gap ++ unit))

/-- A number, which is the longest numeral in front, then a unit or not, with
blanks between. -/
inductive Bare (v : Vocabulary) : Text → Prop
  | mk {n : Numeral} {gap unit : Text}
    (leads : n.Leads Char.isDigit (n.text ++ (gap ++ unit)))
    (blank : isAllBlank gap = true) (optional : v.OptionalUnit unit) :
    v.Bare (n.text ++ (gap ++ unit))

/-- A text with an operator, or with a known function before an opening
parenthesis. -/
def Expresses (v : Vocabulary) (s : Text) : Prop :=
  (∃ c ∈ s, isOperator c = true) ∨
  ∃ front name gap rest, s = front ++ (name ++ (gap ++ '(' :: rest)) ∧
    v.knowsFunction name = true ∧ isAllBlank gap = true

theorem wholeUnit?_optional {s unit : Text} :
    v.wholeUnit? s = some unit ↔ unit = s ∧ v.OptionalUnit s :=
  wholeUnit?_eq_some_iff

theorem OptionalUnit.trimmed {unit : Text} (h : v.OptionalUnit unit) :
    Trimmed unit := by
  rcases h with rfl | token
  · exact ⟨rfl, rfl⟩
  · exact token.trimmed

theorem OptionalUnit.trim_gap {gap unit : Text} (h : v.OptionalUnit unit)
    (blank : isAllBlank gap = true) : trim (gap ++ unit) = unit := by
  have last := dropEndWhile_of_last h.trimmed.last
  rw [trim, trimStart_append blank h.trimmed.head, trimEnd, last]

/-- A unit does not begin with a brace, also when the vocabulary adds one. -/
theorem OptionalUnit.head_ne_brace {unit : Text} (h : v.OptionalUnit unit) :
    unit.head? ≠ some '{' := by
  rcases h with rfl | ⟨first, -, -⟩
  · simp
  · intro brace
    have operator : isOperator '{' = true := by decide
    have letter : isAlphabetic '{' = false := by decide
    have symbol : unitStartSymbols.contains '{' = false := by decide
    rw [brace, Option.any_some, isUnitStart, letter, symbol, operator] at first
    simp at first

theorem input?_plain {gap unit : Text} (blank : isAllBlank gap = true)
    (optional : v.OptionalUnit unit) :
    v.input? ('?' :: (gap ++ unit)) = some (none, unit) := by
  have start := trimStart_append blank optional.trimmed.head
  have whole := wholeUnit?_optional.2 ⟨rfl, optional⟩
  rw [input?, start]
  split
  · exact absurd rfl optional.head_ne_brace
  · rw [whole]
    rfl

theorem input?_marked {body : Text} (h : v.Marked body) :
    ∃ input, v.input? body = some input := by
  cases h with
  | @braced gap inside gap' unit blank closed blank' optional =>
    have whole := wholeUnit?_optional.2 ⟨rfl, optional⟩
    refine ⟨(some (bracedSlot gap inside (gap' ++ unit)), unit), ?_⟩
    rw [← bracedBody, input?_bracedBody v blank closed,
      optional.trim_gap blank', whole]
    rfl
  | plain blank optional => exact ⟨_, input?_plain blank optional⟩

/-- The end of a trimmed text has no margin behind. -/
theorem trailing_of_trimmed {front rest : Text} (h : Trimmed (front ++ rest)) :
    trailing rest = [] := by
  by_contra ne
  have parts := leading_append_trim_append_trailing rest
  have last := h.last
  rw [← parts, ← List.append_assoc, ← List.append_assoc,
    List.getLast?_append_of_ne_nil _ ne] at last
  obtain ⟨c, hc⟩ :=
    Option.ne_none_iff_exists'.1 (mt List.getLast?_eq_none_iff.1 ne)
  have blank :=
    isBlank_of_mem (isAllBlank_trailing rest) c (List.mem_of_mem_getLast? hc)
  rw [hc, Option.any_some, blank] at last
  cases last

/-- Behind the closing brace of a right side without margins stand blanks and
the unit. -/
theorem leading_append_trim_of_bracedBody {gap inside rest : Text}
    (trimmed : Trimmed (bracedBody gap inside rest)) :
    leading rest ++ trim rest = rest := by
  have front :
      bracedBody gap inside rest = bracedBody gap inside [] ++ rest := by
    simp [bracedBody]
  have margin := trailing_of_trimmed (front ▸ trimmed)
  have parts := leading_append_trim_append_trailing rest
  rwa [margin, List.append_nil] at parts

/-- Inputs are what is read as one. -/
theorem marked_iff {body : Text} (trimmed : Trimmed body) :
    v.Marked body ↔ ∃ input, v.input? body = some input := by
  refine ⟨input?_marked, ?_⟩
  rintro ⟨⟨slot | slot, unit⟩, read⟩
  · unfold input? at read
    split at read
    · next marked =>
      split at read
      · split at read
        · obtain ⟨unit', -, eq⟩ := Option.map_eq_some_iff.1 read
          cases eq
        · cases read
      · obtain ⟨unit', whole, eq⟩ := Option.map_eq_some_iff.1 read
        cases eq
        obtain ⟨rfl, optional⟩ := wholeUnit?_optional.1 whole
        rw [← leading_append_trimStart marked]
        exact .plain (isAllBlank_leading marked) optional
    · cases read
  · obtain ⟨gap, inside, rest, blank, closed, rfl, rfl, whole⟩ :=
      exists_bracedBody read
    obtain ⟨rfl, optional⟩ := wholeUnit?_optional.1 whole
    rw [bracedBody, ← leading_append_trim_of_bracedBody trimmed]
    exact .braced blank closed (isAllBlank_leading rest) optional

/-- Numbers with a unit are what is read as one. -/
theorem bare_iff {body : Text} :
    v.Bare body ↔ ∃ literal, v.literal? body = some literal := by
  constructor
  · rintro ⟨leads, blank, optional⟩
    have read :=
      (Numeral.readWith?_eq_some_iff marksApart_isDigit).2 ⟨leads, rfl⟩
    have whole := wholeUnit?_optional.2 ⟨rfl, optional⟩
    rw [literal?, Numeral.read?, read]
    simp only [trimStart_append blank optional.trimmed.head, whole,
      Option.map_some]
    exact ⟨_, rfl⟩
  · rintro ⟨literal, read⟩
    unfold literal? at read
    split at read
    · next n rest numeral =>
      obtain ⟨unit, whole, -⟩ := Option.map_eq_some_iff.1 read
      obtain ⟨rfl, optional⟩ := wholeUnit?_optional.1 whole
      obtain ⟨leads, rfl⟩ :=
        (Numeral.readWith?_eq_some_iff marksApart_isDigit).1 numeral
      have parts := congrArg (n.text ++ ·) (leading_append_trimStart rest)
      rw [← parts] at leads ⊢
      exact .mk leads (isAllBlank_leading rest) optional
    · cases read

/-- A call that was found stands in the text. -/
theorem exists_of_callsFunction {s : Text} (h : v.callsFunction s = true) :
    ∃ front name gap rest, s = front ++ (name ++ (gap ++ '(' :: rest)) ∧
      v.knowsFunction name = true ∧ isAllBlank gap = true := by
  fun_induction v.callsFunction s with
  | case1 => cases h
  | case2 s c after start name rest ih =>
    have skipped :
        s = s.takeWhile (fun c => !isNameStart c) ++ (name ++ rest) := by
      conv =>
        lhs
        rw [← List.takeWhile_append_dropWhile (p := fun c => !isNameStart c)
          (l := s)]
      rw [start, List.cons_append, List.takeWhile_append_dropWhile]
    rw [Bool.or_eq_true, Bool.and_eq_true] at h
    rcases h with ⟨opens, known⟩ | later
    · rw [opensCall, beq_iff_eq] at opens
      obtain ⟨after', paren⟩ : ∃ after', trimStart rest = '(' :: after' := by
        cases hrest : trimStart rest with
        | nil => simp [hrest] at opens
        | cons d t =>
          rw [hrest] at opens
          exact ⟨t, by rw [Option.some.inj opens]⟩
      have parts := leading_append_trimStart rest
      rw [paren] at parts
      exact ⟨_, name, leading rest, after', by rw [parts]; exact skipped, known,
        isAllBlank_leading rest⟩
    · obtain ⟨front, name', gap, rest', hrest, known, blank⟩ := ih later
      refine ⟨s.takeWhile (fun c => !isNameStart c) ++ (name ++ front), name',
        gap, rest', ?_, known, blank⟩
      rw [hrest] at skipped
      simpa using skipped

/-- Expressions are what is read as one. An opening parenthesis is an operator
itself. -/
theorem isExpression_iff {s : Text} :
    v.isExpression s = true ↔ v.Expresses s := by
  rw [isExpression, Bool.or_eq_true, List.any_eq_true]
  constructor
  · rintro (operator | calls)
    · exact .inl operator
    · exact .inr (exists_of_callsFunction calls)
  · rintro (operator | ⟨front, name, gap, rest, rfl, -, -⟩)
    · exact .inl operator
    · exact .inl ⟨'(', by simp, by decide⟩

/-- The kinds of right sides, each for the texts that the ones before do not
take. -/
inductive RightKind (v : Vocabulary) (joined : Bool) (body : Text) : Kind → Prop
  | marked (marked : v.Marked body) : v.RightKind joined body
    (if joined then .joined else .input)
  | bare (unmarked : ¬v.Marked body) (bare : v.Bare body) :
    v.RightKind joined body (if joined then .joined else .literal)
  | expression (unmarked : ¬v.Marked body) (notBare : ¬v.Bare body)
    (expresses : v.Expresses body) :
    v.RightKind joined body .equation
  | other (unmarked : ¬v.Marked body) (notBare : ¬v.Bare body)
    (plain : ¬v.Expresses body) :
    v.RightKind joined body .other

/-- A text has one kind. -/
theorem RightKind.unique {joined : Bool} {body : Text} {k k' : Kind}
    (h : v.RightKind joined body k) (h' : v.RightKind joined body k') :
    k = k' := by
  cases h <;> cases h' <;> first | rfl | contradiction

theorem kind_classifyRight (v : Vocabulary) (joined : Bool)
    (name front right : Text) :
    v.RightKind joined (trim right)
      (v.classifyRight joined name front right).kind := by
  have choose (form : Form) : (if joined then Form.joined else form).kind =
      if joined then Kind.joined else form.kind := by
    cases joined <;> rfl
  cases input : v.input? (trim right) with
  | some found =>
    have marked := (marked_iff (trimmed_trim right)).2 ⟨found, input⟩
    simp only [classifyRight, input, Statement.kind, choose]
    exact .marked marked
  | none =>
    have unmarked : ¬v.Marked (trim right) := by
      simp [marked_iff (trimmed_trim right), input]
    cases literal : v.literal? (trim right) with
    | some found =>
      simp only [classifyRight, input, literal, Statement.kind, choose]
      exact .bare unmarked (bare_iff.2 ⟨found, literal⟩)
    | none =>
      have notBare : ¬v.Bare (trim right) := by simp [bare_iff, literal]
      simp only [classifyRight, input, literal]
      split
      · next expresses =>
          exact .expression unmarked notBare (isExpression_iff.1 expresses)
      · next plain =>
          exact .other unmarked notBare (mt isExpression_iff.2 plain)

/-! ## Segments -/

/-- A segment names something when it can be cut at an assignment sign in one
way, with a name before the sign. -/
structure Names (segment name right : Text) : Prop where
  only : ∃ a : Assignment, a.Cuts segment ∧
    (∀ b : Assignment, b.Cuts segment → b = a) ∧
    trim a.left = name ∧ a.right = right
  name : isName name = true

/-- What a segment says, by the grammar: it is blank, or it names something with
a right side of some kind, or it is of no known kind. -/
structure Grammatical (v : Vocabulary) (joined : Bool) (segment : Text)
    (s : Statement) : Prop where
  blank : s.kind = .blank ↔ isAllBlank segment = true
  name : ∀ name, s.name? = some name ↔ ∃ right, Names segment name right
  right : ∀ name right, Names segment name right →
    ∀ k, s.kind = k ↔ v.RightKind joined (trim right) k
  unnamed : s.name? = none → isAllBlank segment = false → s.kind = .other

/-- A blank text has no assignment sign. -/
theorem Assignment.Cuts.not_blank {a : Assignment} {s : Text} (h : a.Cuts s) :
    isAllBlank s = false := by
  rw [← Bool.not_eq_true]
  intro blank
  have sign :=
    isEquals_of_isBlank (isBlank_of_mem blank a.sign (by simp [h.text]))
  rw [h.sign] at sign
  cases sign

theorem Names.not_blank {segment name right : Text}
    (h : Names segment name right) :
    isAllBlank segment = false := by
  obtain ⟨a, cuts, -⟩ := h.only
  exact cuts.not_blank

theorem names_iff {segment name right : Text} :
    Names segment name right ↔
      ∃ left sign, assignments segment = [⟨left, sign, right⟩] ∧
      trim left = name ∧ isName name = true := by
  constructor
  · rintro ⟨⟨⟨left, sign, right⟩, cuts, only, rfl, rfl⟩, hname⟩
    exact ⟨left, sign, assignments_eq_singleton_iff.2 ⟨cuts, only⟩, rfl, hname⟩
  · rintro ⟨left, sign, single, rfl, hname⟩
    obtain ⟨cuts, only⟩ := assignments_eq_singleton_iff.1 single
    exact ⟨⟨_, cuts, only, rfl, rfl⟩, hname⟩

theorem classify_of_names {segment name right : Text}
    (h : Names segment name right) (joined : Bool) :
    ∃ front, v.classify joined segment =
      v.classifyRight joined name front right := by
  obtain ⟨left, sign, single, rfl, hname⟩ := names_iff.1 h
  refine ⟨left ++ [sign], ?_⟩
  rw [classify, if_neg (by simp [h.not_blank]), single]
  exact if_pos hname

theorem classify_of_not_names {segment : Text}
    (h : ∀ name right, ¬Names segment name right) (joined : Bool) :
    v.classify joined segment =
      if isAllBlank segment then .blank else .unnamed := by
  unfold classify
  split
  · rfl
  split
  · next left sign right single =>
    split
    · next hname =>
        exact absurd (names_iff.2 ⟨left, sign, single, rfl, hname⟩) (h _ _)
    · rfl
  · rfl

/-- A named statement is not blank. -/
theorem RightKind.ne_blank {joined : Bool} {body : Text} {k : Kind}
    (h : v.RightKind joined body k) :
    k ≠ .blank := by
  cases h <;> cases joined <;> simp

/-- A segment can be cut in one way only, so that it names one thing. -/
theorem Names.unique {segment name name' right right' : Text}
    (h : Names segment name right) (h' : Names segment name' right') :
    name' = name ∧ right' = right := by
  obtain ⟨left, sign, single, rfl, -⟩ := names_iff.1 h
  obtain ⟨left', sign', single', rfl, -⟩ := names_iff.1 h'
  rw [single, List.cons.injEq, Assignment.mk.injEq] at single'
  obtain ⟨⟨rfl, -, rfl⟩, -⟩ := single'
  exact ⟨rfl, rfl⟩

theorem Names.grammatical {segment name right : Text}
    (names : Names segment name right) (joined : Bool) :
    v.Grammatical joined segment (v.classify joined segment) := by
  obtain ⟨front, classified⟩ := classify_of_names (v := v) names joined
  have kind := kind_classifyRight v joined name front right
  have name_eq := name?_classifyRight v joined name front right
  rw [← classified] at kind name_eq
  refine ⟨by simp [kind.ne_blank, names.not_blank], ?_, ?_, by simp [name_eq]⟩
  · intro name'
    rw [name_eq, Option.some.injEq]
    constructor
    · rintro rfl
      exact ⟨right, names⟩
    · rintro ⟨right', h⟩
      exact (names.unique h).1.symm
  · intro name' right' h k
    obtain ⟨rfl, rfl⟩ := names.unique h
    constructor
    · rintro rfl
      exact kind
    · exact kind.unique

theorem grammatical_of_not_names {segment : Text}
    (h : ∀ name right, ¬Names segment name right) (joined : Bool) :
    v.Grammatical joined segment (v.classify joined segment) := by
  have unnamed : (v.classify joined segment).name? = none := by
    rw [classify_of_not_names h]
    split <;> rfl
  have kind : (v.classify joined segment).kind =
      if isAllBlank segment then .blank else .other := by
    rw [classify_of_not_names h]
    split <;> rfl
  refine ⟨by simp [kind], by simp [unnamed, h], ?_, by simp +contextual [kind]⟩
  intro name right names
  exact absurd names (h name right)

/-- Segments are read by the grammar. -/
theorem classify_grammatical (v : Vocabulary) (joined : Bool) (segment : Text) :
    v.Grammatical joined segment (v.classify joined segment) := by
  by_cases named : ∃ name right, Names segment name right
  · obtain ⟨name, right, names⟩ := named
    exact names.grammatical joined
  · simp only [not_exists] at named
    exact grammatical_of_not_names named joined

end Vocabulary

/-! ## Lines -/

namespace Line

/-- A line is cut at its marks and its comment, and each segment says what the
grammar finds in it. Behind a mark a declaration of either shape is a joined
one. -/
theorem read_grammatical (v : Vocabulary) (s : Text) :
    (∀ k : Cut, k.Cuts s ↔
      (read v s).clauses.map Clause.text = k.first :: k.others ∧
        (read v s).comment = k.comment) ∧
    ∀ before clause after, (read v s).clauses = before ++ clause :: after →
      v.Grammatical (!before.isEmpty) clause.text clause.statement := by
  constructor
  · rintro ⟨first, others, comment⟩
    rw [← Cut.ofText_eq_iff]
    cases h : Cut.ofText s
    simp [read, clauses, h, Function.comp_def, and_assoc]
  · intro before clause after around
    obtain ⟨-, classified, -⟩ := clauses_around around
    rw [classified]
    exact v.classify_grammatical _ clause.text

/-- Behind a mark, a question mark with a unit is a joined declaration. -/
theorem read_grammatical_sample :
    ∃ before clause after,
      (read .builtIn "a = 1';'b = ? kN # c".toList).clauses =
        before ++ clause :: after ∧
      clause.text = "b = ? kN ".toList ∧ clause.statement.name? = some ['b'] ∧
      clause.statement.kind = .joined := by
  have around : (read .builtIn "a = 1';'b = ? kN # c".toList).clauses =
      [⟨"a = 1".toList, Vocabulary.classify .builtIn false "a = 1".toList⟩] ++
        ⟨"b = ? kN ".toList,
          Vocabulary.classify .builtIn true "b = ? kN ".toList⟩ :: [] := by
    decide +kernel
  have single : Vocabulary.assignments "b = ? kN ".toList =
      [⟨['b', ' '], '=', " ? kN ".toList⟩] := rfl
  have names : Vocabulary.Names "b = ? kN ".toList ['b'] " ? kN ".toList :=
    Vocabulary.names_iff.2 ⟨_, _, single, by decide, by decide⟩
  have grammar :=
    (read_grammatical .builtIn "a = 1';'b = ? kN # c".toList).2 _ _ _ around
  have whole : Vocabulary.builtIn.wholeUnit? ['k', 'N'] = some ['k', 'N'] := by
    decide
  have body : trim " ? kN ".toList = '?' :: ([' '] ++ ['k', 'N']) := by decide
  have marked : Vocabulary.builtIn.Marked (trim " ? kN ".toList) := by
    rw [body]
    exact .plain rfl (Vocabulary.wholeUnit?_optional.1 whole).2
  refine ⟨_, _, _, around, rfl, (grammar.name ['b']).2 ⟨_, names⟩, ?_⟩
  exact (grammar.right _ _ names _).2 (.marked marked)

end Line
end Worksheet

import Mathlib.Data.List.Basic
import Worksheet.Markup.Unit
import Worksheet.Proofs.Markup.Lexing

/-!
# Nested spans

What stands in a span up to its end is a forest of spans, with other tokens
before, between and in them. Reading to the end of a span finds such a forest
and nothing else, and takes numerator and denominator of a fraction from it.
-/

namespace Worksheet.Markup

open Text

/-! ## Forests -/

/-- Whether the tag begins or ends a span. -/
def Tag.marksSpan (t : Tag) : Bool :=
  t.opens "span".toList || t.closes "span".toList

/-- Whether the token is a tag that begins or ends a span. -/
def Token.marksSpan : Token → Bool
  | tag t => t.marksSpan
  | _ => false

/-- Tokens and spans that hold forests. -/
inductive Forest where
  | nil
  | leaf (token : Token) (rest : Forest)
  | span (opening : Tag) (inside : Forest) (closing : Tag) (rest : Forest)
  deriving DecidableEq

namespace Forest

def toTokens : Forest → List Token
  | nil => []
  | leaf token rest => token :: rest.toTokens
  | span opening inside closing rest =>
    .tag opening :: (inside.toTokens ++ .tag closing :: rest.toTokens)

/-- The forest as written. -/
def text (f : Forest) : Text := unlex f.toTokens

/-- The tags that begin and end spans stand around the spans of the forest, and
nowhere else. -/
def Nested : Forest → Prop
  | nil => True
  | leaf token rest => token.marksSpan = false ∧ rest.Nested
  | span opening inside closing rest =>
    opening.opens "span".toList = true ∧ closing.closes "span".toList = true ∧
      inside.Nested ∧ rest.Nested

instance decidableNested : DecidablePred Nested
  | nil => .isTrue trivial
  | leaf token rest =>
    have := decidableNested rest
    inferInstanceAs (Decidable (token.marksSpan = false ∧ rest.Nested))
  | span opening inside closing rest =>
    have := decidableNested inside
    have := decidableNested rest
    inferInstanceAs (Decidable (opening.opens "span".toList = true ∧
      closing.closes "span".toList = true ∧ inside.Nested ∧ rest.Nested))

/-- The spans that are in no other span, by the tag that begins them and what
they hold. -/
def children : Forest → List (Tag × Forest)
  | nil => []
  | leaf _ rest => rest.children
  | span opening inside _ rest => (opening, inside) :: rest.children

/-- Whether a span is the line between numerator and denominator. -/
def isRule (opening : Tag) (inside : Forest) : Bool :=
  opening.classes.contains "dvl".toList && (unitText inside.text).isEmpty

/-- What stands before and after the first line between numerator and
denominator. -/
def cutAtRule? : Forest → Option (Forest × Forest)
  | nil => none
  | leaf token rest =>
    rest.cutAtRule?.map fun (above, below) => (leaf token above, below)
  | span opening inside closing rest =>
    if isRule opening inside then some (nil, rest)
    else rest.cutAtRule?.map fun (above, below) =>
      (span opening inside closing above, below)

/-- Numerator and denominator: the sides of the line between them, or the first
two spans. -/
def fraction? (f : Forest) : Option (Forest × Forest) :=
  match f.cutAtRule? with
  | some sides => some sides
  | none =>
    match f.children with
    | (_, numerator) :: (_, denominator) :: _ => some (numerator, denominator)
    | _ => none

@[simp] theorem text_nil : text nil = [] := rfl

@[simp] theorem text_leaf (token : Token) (rest : Forest) :
    text (leaf token rest) = token.text ++ rest.text := rfl

@[simp] theorem text_span (opening closing : Tag) (inside rest : Forest) :
    text (span opening inside closing rest) =
      opening.text ++ (inside.text ++ (closing.text ++ rest.text)) := by
  simp [text, toTokens, Token.text]

end Forest

/-! ## Reading to the end of a span -/

/-- Puts text in front of the child that is open. -/
def SpanEnd.pushInside (s : Text) (e : SpanEnd) : SpanEnd :=
  { e with inside := s ++ e.inside }

/-- Reads tokens to the end of a span, with the text in front of the first
tag. -/
def readSpan? (ts : List Token) : Option (Text × SpanEnd) :=
  (spanEnd? 0 (splitTags ts).2).map fun e => ((splitTags ts).1, e)

/-- Reads tokens to the end of a span from inside a child, in which `depth`
further spans are open. -/
def readChild? (depth : Nat) (ts : List Token) : Option SpanEnd :=
  (spanEnd? (depth + 1) (splitTags ts).2).map (·.pushInside (splitTags ts).1)

@[simp] theorem splitTags_tag (t : Tag) (ts : List Token) :
    splitTags (.tag t :: ts) =
      ([], ⟨t, (splitTags ts).1⟩ :: (splitTags ts).2) := rfl

theorem splitTags_untagged {t : Token} (h : ∀ u, t ≠ .tag u) (ts : List Token) :
    splitTags (t :: ts) = (t.text ++ (splitTags ts).1, (splitTags ts).2) := by
  cases t with
  | tag u => exact absurd rfl (h u)
  | entity e => rfl
  | char c => rfl

theorem unlex_splitTags (ts : List Token) :
    (splitTags ts).1 ++ joinTagged (splitTags ts).2 = unlex ts := by
  induction ts with
  | nil => rfl
  | cons t ts ih =>
    rw [unlex_cons, ← ih]
    cases t with
    | tag u => simp [splitTags_tag, joinTagged, Tagged.text, Token.text]
    | entity e => simp [splitTags_untagged]
    | char c => simp [splitTags_untagged]

theorem map_pushInside (e : Option SpanEnd) (s s' : Text) :
    (e.map (·.pushInside s')).map (·.pushInside s) =
      e.map (·.pushInside (s ++ s')) := by
  cases e <;> simp [SpanEnd.pushInside]

section

variable {u : Tag} (ts : List Token)

theorem readChild?_untagged {t : Token} (h : ∀ u, t ≠ .tag u) (depth : Nat) :
    readChild? depth (t :: ts) =
      (readChild? depth ts).map (·.pushInside t.text) := by
  rw [readChild?, readChild?, splitTags_untagged h, map_pushInside]

theorem readChild?_leaf (h : u.marksSpan = false) (depth : Nat) :
    readChild? depth (.tag u :: ts) =
      (readChild? depth ts).map (·.pushInside u.text) := by
  rw [Tag.marksSpan, Bool.or_eq_false_iff] at h
  rw [readChild?, readChild?, map_pushInside, splitTags_tag, spanEnd?,
    if_neg (ne_true_of_eq_false h.1), if_neg (ne_true_of_eq_false h.2)]
  exact map_pushInside _ [] _

theorem readChild?_open (h : u.opens "span".toList = true) (depth : Nat) :
    readChild? depth (.tag u :: ts) =
      (readChild? (depth + 1) ts).map (·.pushInside u.text) := by
  rw [readChild?, readChild?, map_pushInside, splitTags_tag, spanEnd?, if_pos h]
  exact map_pushInside _ [] _

/-- A tag does not both open and close. -/
theorem Tag.not_opens_of_closes {name : Text} (h : u.closes name = true)
    (other : Text) :
    u.opens other = false := by
  rw [closes, Bool.and_eq_true] at h
  rw [opens, h.1]
  rfl

theorem readChild?_close_inner (h : u.closes "span".toList = true)
    (depth : Nat) :
    readChild? (depth + 1) (.tag u :: ts) =
      (readChild? depth ts).map (·.pushInside u.text) := by
  rw [readChild?, readChild?, map_pushInside, splitTags_tag, spanEnd?,
    if_neg (ne_true_of_eq_false (Tag.not_opens_of_closes h _)), if_pos h,
    if_neg (Nat.succ_ne_zero depth)]
  exact map_pushInside _ [] _

theorem readChild?_close (h : u.closes "span".toList = true) :
    readChild? 0 (.tag u :: ts) =
      (readSpan? ts).map fun (s, e) =>
        { e with inside := [], closing := u.text,
                 parts := .loose s :: e.parts } := by
  rw [readChild?, readSpan?, splitTags_tag, spanEnd?,
    if_neg (ne_true_of_eq_false (Tag.not_opens_of_closes h _)), if_pos h,
    if_pos rfl, Option.map_map, Option.map_map]
  rfl

theorem readSpan?_untagged {t : Token} (h : ∀ u, t ≠ .tag u) :
    readSpan? (t :: ts) =
      (readSpan? ts).map fun (s, e) => (t.text ++ s, e) := by
  rw [readSpan?, readSpan?, splitTags_untagged h, Option.map_map]
  rfl

theorem readSpan?_leaf (h : u.marksSpan = false) :
    readSpan? (.tag u :: ts) =
      (readSpan? ts).map fun (s, e) =>
        ([], { e with parts := .loose (u.text ++ s) :: e.parts }) := by
  rw [Tag.marksSpan, Bool.or_eq_false_iff] at h
  rw [readSpan?, readSpan?, splitTags_tag, spanEnd?,
    if_neg (ne_true_of_eq_false h.1), if_neg (ne_true_of_eq_false h.2),
    Option.map_map, Option.map_map]
  rfl

theorem readSpan?_open (h : u.opens "span".toList = true) :
    readSpan? (.tag u :: ts) =
      (readChild? 0 ts).map fun e =>
        ([], { e with inside := [], closing := [],
                      parts := .child u e.inside e.closing :: e.parts }) := by
  rw [readSpan?, readChild?, splitTags_tag, spanEnd?, if_pos h, Option.map_map,
    Option.map_map]
  rfl

theorem readSpan?_close (h : u.closes "span".toList = true) :
    readSpan? (.tag u :: ts) = some ([], ⟨[], [], [], unlex ts⟩) := by
  rw [readSpan?, splitTags_tag, spanEnd?,
    if_neg (ne_true_of_eq_false (Tag.not_opens_of_closes h _)), if_pos h,
    unlex_splitTags]
  rfl

end

/-! ## Parts and forests -/

/-- The parts of a span show the forest in it: they are written alike, have the
same children, and are cut at the same line. -/
structure Shows (ps : List Part) (f : Forest) : Prop where
  joined : joinParts ps = f.text
  insides : ps.filterMap Part.inside? = f.children.map fun child => child.2.text
  cut : ∀ above below, f.cutAtRule? = some (above, below) →
    joinParts (ps.takeWhile (!·.isRule)) = above.text ∧
      ∃ rule after, ps.dropWhile (!·.isRule) = rule :: after ∧
        joinParts after = below.text
  uncut : f.cutAtRule? = none → ps.dropWhile (!·.isRule) = []

section

variable {s : Text} {ps : List Part} {f : Forest}

theorem shows_nil : Shows [.loose []] .nil :=
  ⟨rfl, rfl, fun _ _ cut => (nomatch cut), fun _ => rfl⟩

/-- An empty text shows nothing. -/
theorem Shows.empty (h : Shows ps f) : Shows (.loose [] :: ps) f :=
  ⟨h.joined, h.insides, h.cut, h.uncut⟩

theorem Shows.leaf (h : Shows (.loose s :: ps) f) (token : Token) :
    Shows (.loose (token.text ++ s) :: ps) (.leaf token f) := by
  have front (w : Text) (qs : List Part) : joinParts (.loose (w ++ s) :: qs) =
      w ++ joinParts (.loose s :: qs) := List.append_assoc _ _ _
  refine ⟨?_, h.insides, ?_, ?_⟩
  · rw [front, h.joined, Forest.text_leaf]
  · intro above below cut
    obtain ⟨⟨above', below'⟩, cut', sides⟩ := Option.map_eq_some_iff.1 cut
    cases sides
    obtain ⟨before, after⟩ := h.cut above' below cut'
    refine ⟨?_, after⟩
    rw [Forest.text_leaf, ← before]
    exact front token.text _
  · intro uncut
    exact h.uncut (Option.map_eq_none_iff.1 uncut)

theorem Shows.span (h : Shows ps f) (opening closing : Tag) (inside : Forest) :
    Shows (.child opening inside.text closing.text :: ps)
      (.span opening inside closing f) := by
  have rule : (Part.child opening inside.text closing.text).isRule =
      Forest.isRule opening inside := rfl
  have front (qs : List Part) :
      joinParts (.child opening inside.text closing.text :: qs) =
      opening.text ++ (inside.text ++ (closing.text ++ joinParts qs)) := by
    simp [joinParts, Part.text]
  refine ⟨?_, ?_, ?_, ?_⟩
  · rw [front, h.joined, Forest.text_span]
  · rw [Forest.children, List.map_cons, ← h.insides]
    rfl
  · intro above below cut
    rw [Forest.cutAtRule?] at cut
    split at cut
    · next line =>
      cases cut
      rw [List.takeWhile_cons_of_neg (by simp [rule, line]),
        List.dropWhile_cons_of_neg (by simp [rule, line])]
      exact ⟨rfl, _, ps, rfl, h.joined⟩
    · next line =>
      obtain ⟨⟨above', below'⟩, cut', sides⟩ := Option.map_eq_some_iff.1 cut
      cases sides
      obtain ⟨before, after⟩ := h.cut above' below cut'
      rw [List.takeWhile_cons_of_pos (by simp [rule, line]),
        List.dropWhile_cons_of_pos (by simp [rule, line]), front, before,
        Forest.text_span]
      exact ⟨rfl, after⟩
  · intro uncut
    rw [Forest.cutAtRule?] at uncut
    split at uncut
    · cases uncut
    · next line =>
      rw [List.dropWhile_cons_of_pos (by simp [rule, line])]
      exact h.uncut (Option.map_eq_none_iff.1 uncut)

/-- Numerator and denominator are found in the parts as in the forest. -/
theorem Shows.fractionParts (h : Shows ps f) :
    fractionParts? ps = f.fraction?.map fun (above, below) =>
      (above.text, below.text) := by
  rw [fractionParts?, Forest.fraction?]
  cases cut : f.cutAtRule? with
  | some sides =>
    obtain ⟨above, below⟩ := sides
    obtain ⟨before, rule, after, split, later⟩ := h.cut above below cut
    rw [split, before]
    simp [later]
  | none =>
    rw [h.uncut cut, h.insides]
    rcases f.children with _ | ⟨child, _ | ⟨child', children⟩⟩ <;> rfl

end

/-! ## Forests are read as a whole -/

section

variable {f : Forest} (nested : f.Nested)

include nested

theorem readChild?_append (depth : Nat) (ts : List Token) :
    readChild? depth (f.toTokens ++ ts) =
      (readChild? depth ts).map (·.pushInside f.text) := by
  induction f generalizing depth ts with
  | nil =>
    cases h : readChild? depth ts <;>
      simp [Forest.toTokens, SpanEnd.pushInside, h]
  | leaf token rest ih =>
    rw [Forest.text_leaf, ← map_pushInside, ← ih nested.2, Forest.toTokens,
      List.cons_append]
    cases token with
    | tag u => exact readChild?_leaf _ nested.1 depth
    | entity e => exact readChild?_untagged _ (by simp) depth
    | char c => exact readChild?_untagged _ (by simp) depth
  | span opening inside closing rest ihInside ihRest =>
    obtain ⟨opens, closes, nestedInside, nestedRest⟩ := nested
    rw [Forest.text_span, ← map_pushInside, ← map_pushInside, ← map_pushInside,
      ← ihRest nestedRest, ← readChild?_close_inner _ closes,
      ← ihInside nestedInside, ← readChild?_open _ opens, Forest.toTokens]
    simp only [List.cons_append, List.append_assoc]

/-- Reading to the end of a span finds the forest in it and what follows the
span. -/
theorem readSpan?_append {closing : Tag}
    (closes : closing.closes "span".toList = true) (ts : List Token) :
    ∃ s ps, readSpan? (f.toTokens ++ .tag closing :: ts) =
      some (s, ⟨[], [], ps, unlex ts⟩) ∧
      Shows (.loose s :: ps) f := by
  induction f with
  | nil => exact ⟨[], [], readSpan?_close ts closes, shows_nil⟩
  | leaf token rest ih =>
    obtain ⟨s, ps, read, shows'⟩ := ih nested.2
    rw [Forest.toTokens, List.cons_append]
    cases token with
    | tag u =>
      refine ⟨[], .loose (u.text ++ s) :: ps, ?_, (shows'.leaf (.tag u)).empty⟩
      rw [readSpan?_leaf _ nested.1, read]
      rfl
    | entity e =>
      refine ⟨e.text ++ s, ps, ?_, shows'.leaf (.entity e)⟩
      rw [readSpan?_untagged _ (by simp), read]
      rfl
    | char c =>
      refine ⟨c :: s, ps, ?_, shows'.leaf (.char c)⟩
      rw [readSpan?_untagged _ (by simp), read]
      rfl
  | span opening inside closing' rest ihInside ihRest =>
    obtain ⟨opens, closes', nestedInside, nestedRest⟩ := nested
    obtain ⟨s, ps, read, shows'⟩ := ihRest nestedRest
    refine ⟨[], .child opening inside.text closing'.text :: .loose s :: ps, ?_,
      (shows'.span opening closing' inside).empty⟩
    rw [Forest.toTokens, List.cons_append, List.append_assoc, List.cons_append,
      readSpan?_open _ opens, readChild?_append nestedInside,
      readChild?_close _ closes', read]
    simp [SpanEnd.pushInside]

end

/-- Tokens in which `depth` open children and a span end, with forests before
each end. -/
inductive Enclosed : (depth : Nat) → List Token → Prop where
  | span {f : Forest} {closing : Tag} {ts : List Token} (nested : f.Nested)
    (closes : closing.closes "span".toList = true) :
    Enclosed 0 (f.toTokens ++ .tag closing :: ts)
  | child {depth : Nat} {f : Forest} {closing : Tag} {ts : List Token}
    (nested : f.Nested)
    (closes : closing.closes "span".toList = true) (rest : Enclosed depth ts) :
    Enclosed (depth + 1) (f.toTokens ++ .tag closing :: ts)

/-- A token that marks no span goes to the forest before it. -/
theorem Enclosed.leaf {depth : Nat} {ts : List Token} (h : Enclosed depth ts)
    {token : Token} (unmarked : token.marksSpan = false) :
    Enclosed depth (token :: ts) := by
  cases h with
  | @span f closing ts nested closes =>
    have nested' : (Forest.leaf token f).Nested := ⟨unmarked, nested⟩
    exact .span nested' closes
  | @child depth f closing ts nested closes rest =>
    have nested' : (Forest.leaf token f).Nested := ⟨unmarked, nested⟩
    exact .child nested' closes rest

/-- A span that is opened ends first; it goes to the forest before the
next end. -/
theorem Enclosed.open {depth : Nat} {ts : List Token}
    (h : Enclosed (depth + 1) ts) {opening : Tag}
    (opens : opening.opens "span".toList = true) :
    Enclosed depth (.tag opening :: ts) := by
  cases h with
  | @child _ inside closing ts nested closes rest =>
    cases rest with
    | @span f closing' ts nested' closes' =>
      have spans : (Forest.span opening inside closing f).Nested :=
        ⟨opens, closes, nested, nested'⟩
      have joined :
          Enclosed 0 ((Forest.span opening inside closing f).toTokens ++
            .tag closing' :: ts) :=
        .span spans closes'
      simpa [Forest.toTokens] using joined
    | @child depth f closing' ts nested' closes' rest =>
      have spans : (Forest.span opening inside closing f).Nested :=
        ⟨opens, closes, nested, nested'⟩
      have joined := Enclosed.child spans closes' rest
      simpa [Forest.toTokens] using joined

/-- Where the end of a span is read, forests stand before the ends. -/
theorem enclosed_of_isSome (ts : List Token) :
    ((readSpan? ts).isSome = true → Enclosed 0 ts) ∧
      ∀ depth, (readChild? depth ts).isSome = true →
        Enclosed (depth + 1) ts := by
  -- Reading a span goes on in a child and comes back, so that both are shown by
  -- one induction.
  induction ts with
  | nil =>
    constructor
    · intro read
      cases read
    · intro depth read
      cases read
  | cons t ts ih =>
    obtain ⟨ihSpan, ihChild⟩ := ih
    have untagged (h : ∀ u, t ≠ .tag u) (unmarked : t.marksSpan = false) :
        ((readSpan? (t :: ts)).isSome = true → Enclosed 0 (t :: ts)) ∧
          ∀ depth, (readChild? depth (t :: ts)).isSome = true →
            Enclosed (depth + 1) (t :: ts) := by
      constructor
      · intro read
        rw [readSpan?_untagged ts h, Option.isSome_map] at read
        exact (ihSpan read).leaf unmarked
      · intro depth read
        rw [readChild?_untagged ts h, Option.isSome_map] at read
        exact (ihChild depth read).leaf unmarked
    cases t with
    | entity e => exact untagged (by simp) rfl
    | char c => exact untagged (by simp) rfl
    | tag u =>
      cases opens : u.opens "span".toList with
      | true =>
        constructor
        · intro read
          rw [readSpan?_open ts opens, Option.isSome_map] at read
          exact (ihChild 0 read).open opens
        · intro depth read
          rw [readChild?_open ts opens, Option.isSome_map] at read
          exact (ihChild (depth + 1) read).open opens
      | false =>
        cases closes : u.closes "span".toList with
        | true =>
          refine ⟨fun _ => Enclosed.span (f := .nil) trivial closes, ?_⟩
          intro depth read
          cases depth with
          | zero =>
            rw [readChild?_close ts closes, Option.isSome_map] at read
            exact Enclosed.child (f := .nil) trivial closes (ihSpan read)
          | succ depth =>
            rw [readChild?_close_inner ts closes, Option.isSome_map] at read
            exact Enclosed.child (f := .nil) trivial closes (ihChild depth read)
        | false =>
          have unmarked : u.marksSpan = false := by
            rw [Tag.marksSpan, opens, closes, Bool.or_false]
          constructor
          · intro read
            rw [readSpan?_leaf ts unmarked, Option.isSome_map] at read
            exact (ihSpan read).leaf unmarked
          · intro depth read
            rw [readChild?_leaf ts unmarked, Option.isSome_map] at read
            exact (ihChild depth read).leaf unmarked

/-- Where the end of a span is read, the tokens up to it are a forest. -/
theorem exists_forest_of_isSome {ts : List Token}
    (h : (readSpan? ts).isSome = true) :
    ∃ f closing after, Forest.Nested f ∧ closing.closes "span".toList = true ∧
      ts = f.toTokens ++ .tag closing :: after := by
  cases (enclosed_of_isSome ts).1 h with
  | span nested closes => exact ⟨_, _, _, nested, closes, rfl⟩

end Worksheet.Markup

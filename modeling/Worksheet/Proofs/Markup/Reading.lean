import Mathlib.Data.List.Basic
import Mathlib.Data.List.Infix
import Worksheet.Proofs.Markup.Fraction

/-!
# Units are read from tokens

A unit is read from the tokens of a markup and from nothing else; a rest in
which no tag ends adds nothing to it. A power ends at the first token that is
written with `</sup>` at its end.
-/

namespace Worksheet.Markup

open Text

/-! ## Tokens and a rest -/

/-- The markup is read as the tokens, up to a rest in which no tag ends. -/
inductive ReadsAs : Text → List Token → Prop where
  | rest {s : Text} (unclosed : '>' ∉ s) : ReadsAs s []
  | cons {t : Token} {s : Text} {ts : List Token} (first : t.Stands s)
    (rest : ReadsAs s ts) :
    ReadsAs (t.text ++ s) (t :: ts)

theorem Lexed.readsAs {ts : List Token} {after : Text} (h : Lexed ts after)
    (unclosed : '>' ∉ after) :
    ReadsAs (unlex ts ++ after) ts := by
  induction h with
  | nil => exact .rest unclosed
  | cons first _ ih =>
    rw [unlex_cons, List.append_assoc]
    exact .cons first (ih unclosed)

theorem readsAs_tokens (markup : Text) : ReadsAs markup (tokens markup) := by
  have read := (lexed_tokens markup).readsAs (by simp)
  rwa [unlex_tokens, List.append_nil] at read

namespace ReadsAs

variable {markup : Text} {ts front back : List Token}

theorem of_append (h : ReadsAs markup (front ++ back)) :
    ∃ s, markup = unlex front ++ s ∧ Lexed front s ∧ ReadsAs s back := by
  induction front generalizing markup with
  | nil => exact ⟨markup, rfl, .nil, h⟩
  | cons t front ih =>
    cases h with
    | cons first rest =>
      obtain ⟨s, rfl, lexed, later⟩ := ih rest
      exact ⟨s, by simp, .cons first lexed, later⟩

theorem lexed_of_infix (h : ReadsAs markup ts) (inside : front <:+: ts) :
    ∃ after, Lexed front after := by
  obtain ⟨a, b, rfl⟩ := inside
  obtain ⟨s, rfl, lexed, -⟩ := h.of_append
  exact ⟨_, lexed.of_append.2⟩

/-- The rest holds no tags. -/
theorem exists_tokens (h : ReadsAs markup ts) :
    ∃ us, tokens markup = ts ++ us ∧ ∀ u, .tag u ∉ us := by
  induction h with
  | @rest s unclosed =>
    refine ⟨tokens s, rfl, fun u hu => unclosed ?_⟩
    rw [← unlex_tokens s]
    exact List.mem_flatMap.2 ⟨_, hu, by simp [Token.text, Tag.text]⟩
  | cons first rest ih =>
    obtain ⟨us, whole, untagged⟩ := ih
    exact ⟨us, by rw [first.tokens, whole, List.cons_append], untagged⟩

/-- No tag ends in front of a line feed in the tag. -/
theorem close_not_mem_of_feed {t : Token} {s a b : Text} (first : t.Stands s)
    (split : t.text = a ++ '\n' :: b) : '>' ∉ a := by
  cases t with
  | char c =>
    have none : a = [] := by
      cases a with
      | nil => rfl
      | cons d a => simp [Token.text] at split
    simp [none]
  | entity e =>
    have sound : e.Sound := first
    have feed : '\n' ∈ e.text := by
      have written : e.text = a ++ '\n' :: b := split
      simp [written]
    exact absurd feed (sound.not_mem_text (by decide) (by decide) (by decide))
  | tag t =>
    have sound : t.Sound := first
    have written : ('<' :: t.body) ++ ['>'] = a ++ '\n' :: b := split
    have front : a <+: ('<' :: t.body) ++ ['>'] := ⟨_, written.symm⟩
    rcases List.prefix_concat_iff.1 front with whole | inside
    · rw [← whole] at written
      simp at written
    · intro mem
      exact sound.unclosed
        ((List.mem_cons.1 (inside.subset mem)).resolve_left (by decide))

/-- A row of a markup is read as the tokens in front of its end. -/
theorem row (h : ReadsAs markup ts) :
    ReadsAs (markup.takeWhile (· != '\n'))
      (ts.takeWhile (!·.text.contains '\n')) := by
  induction h with
  | @rest s unclosed =>
    exact .rest fun mem => unclosed ((List.takeWhile_sublist _).mem mem)
  | @cons t s ts first rest ih =>
    by_cases feed : '\n' ∈ t.text
    · obtain ⟨a, b, split, before⟩ := List.eq_append_cons_of_mem feed
      rw [List.takeWhile_cons_of_neg (by simp [feed]), split, List.append_assoc,
        List.takeWhile_append_of_pos (bne_of_not_mem before), List.cons_append,
        List.takeWhile_cons_of_neg (by simp), List.append_nil]
      exact .rest (close_not_mem_of_feed first split)
    · rw [List.takeWhile_append_of_pos (bne_of_not_mem feed),
        List.takeWhile_cons_of_pos (by simp [feed])]
      refine .cons ?_ ih
      rw [← List.takeWhile_append_dropWhile (p := (· != '\n'))
        (l := s)] at first
      exact first.of_append

end ReadsAs

/-! ## The end of a power -/

/-- Whether the search for the end of a power stops at the end of the token. -/
def Token.endsPower (t : Token) : Bool := "</sup>".toList.isSuffixOf t.text

theorem Token.endsPower_iff {t : Token} :
    t.endsPower = true ↔ ∃ s, t.text = s ++ "</sup>".toList := by
  rw [endsPower, List.isSuffixOf_iff_suffix]
  exact exists_congr fun s => eq_comm

/-- A mark for the end of a power that begins inside a token ends with the
token. -/
theorem Token.Stands.mark_ends {t : Token} {s before m after : Text}
    (first : t.Stands s) (inside : t.text = before ++ '<' :: m)
    (mark : "/sup>".toList ++ after = m ++ s) :
    m = "/sup>".toList := by
  cases t with
  | char d =>
    -- The character would be the `<` of a closing tag, which is read as a tag.
    obtain ⟨rfl, inside⟩ : before = [] ∧ [d] = '<' :: m := by
      cases before with
      | nil => exact ⟨rfl, inside⟩
      | cons e before => simp [Token.text] at inside
    obtain ⟨rfl, rfl⟩ := List.cons.inj inside
    have read : Tag.readAfter? s = some (⟨"/sup".toList⟩, after) :=
      Tag.readAfter?_eq_some_iff.2
        ⟨⟨by decide, by decide, by decide⟩, mark.symm⟩
    rw [first.1 rfl] at read
    cases read
  | entity e =>
    have sound : e.Sound := first
    have mem : '<' ∈ e.text := by
      have written : e.text = before ++ '<' :: m := inside
      simp [written]
    exact absurd mem (sound.not_mem_text (by decide) (by decide) (by decide))
  | tag u =>
    -- Both end at the first `>` behind the `<`.
    have written : ('<' :: u.body) ++ ['>'] = before ++ '<' :: m := inside
    rcases List.eq_nil_or_concat' m with rfl | ⟨m, last, rfl⟩
    · exact absurd (List.append_inj_right' written rfl) (by decide)
    rw [← List.cons_append, ← List.append_assoc] at written
    obtain rfl : '>' = last :=
      List.singleton_inj.1 (List.append_inj_right' written rfl)
    have body := List.append_inj_left' written rfl
    have unclosed : '>' ∉ m := by
      intro mem
      have sound : u.Sound := first
      have mem' : '>' ∈ '<' :: u.body := by simp [body, mem]
      exact sound.unclosed ((List.mem_cons.1 mem').resolve_left (by decide))
    have here : Tag.cutAtClose? ("/sup>".toList ++ after) =
        some ("/sup".toList, after) :=
      Tag.cutAtClose?_eq_some_iff.2 ⟨by decide, rfl⟩
    have there : Tag.cutAtClose? ("/sup>".toList ++ after) = some (m, s) :=
      Tag.cutAtClose?_eq_some_iff.2
        ⟨unclosed, by rw [mark, List.append_assoc]; rfl⟩
    rw [here] at there
    obtain ⟨rfl, -⟩ := Prod.mk.inj (Option.some.inj there)
    rfl

/-- A power ends at the end of a token. -/
theorem ReadsAs.exists_endsPower {markup before after : Text} {ts : List Token}
    (h : ReadsAs markup ts)
    (split : markup = before ++ ("</sup>".toList ++ after)) :
    ∃ front t back s, ts = front ++ t :: back ∧ t.text = s ++ "</sup>".toList ∧
      before = unlex front ++ s := by
  induction h generalizing before with
  | rest unclosed =>
    subst split
    simp at unclosed
  | @cons t s ts first rest ih =>
    have later {m : Text} (hs : s = m ++ ("</sup>".toList ++ after))
        (hb : before = t.text ++ m) :
        ∃ front u back w, t :: ts = front ++ u :: back ∧
          u.text = w ++ "</sup>".toList ∧
          before = unlex front ++ w := by
      obtain ⟨front, u, back, w, rfl, written, rfl⟩ := ih hs
      exact ⟨t :: front, u, back, w, rfl, written, by simp [hb]⟩
    -- The mark begins behind the token, or inside it.
    rcases List.append_eq_append_iff.1 split with ⟨m, hb, hs⟩ | ⟨m, inside, hs⟩
    · exact later hs hb
    cases m with
    | nil => exact later (m := []) hs.symm (by simpa using inside.symm)
    | cons c m =>
      obtain ⟨rfl, mark⟩ : '<' = c ∧ "/sup>".toList ++ after = m ++ s :=
        List.cons.inj hs
      rw [first.mark_ends inside mark] at inside
      exact ⟨[], t, ts, before, rfl, inside, rfl⟩

/-- Without a token at which it ends, no power is cut off. -/
theorem ReadsAs.cutAt?_none {markup : Text} {ts : List Token}
    (h : ReadsAs markup ts) (endless : ∀ t ∈ ts, t.endsPower = false) :
    cutAt? "</sup>".toList markup = none := by
  rw [Option.eq_none_iff_forall_ne_some]
  rintro ⟨before, after⟩ cut
  obtain ⟨front, t, back, s, rfl, written, -⟩ :=
    h.exists_endsPower (cutAt?_eq_some_iff.1 cut).1
  have ends := Token.endsPower_iff.2 ⟨s, written⟩
  rw [endless t (by simp)] at ends
  cases ends

/-- A power is cut off at the first token at which it ends. -/
theorem ReadsAs.cutAt?_first {markup s : Text} {front back : List Token}
    {t : Token} (h : ReadsAs markup (front ++ t :: back))
    (endless : ∀ u ∈ front, u.endsPower = false)
    (written : t.text = s ++ "</sup>".toList) :
    (cutAt? "</sup>".toList markup).map Prod.fst = some (unlex front ++ s) := by
  obtain ⟨rest, rfl, -, later⟩ := h.of_append
  cases later with
  | @cons _ after _ _ _ =>
    have first : ∀ before after', unlex front ++ (t.text ++ after) =
        before ++ ("</sup>".toList ++ after') →
        (unlex front ++ s).length ≤ before.length := by
      intro before after' split
      obtain ⟨front', t', back', s', join, written', rfl⟩ :=
        h.exists_endsPower split
      have here {s s' : Text} {t : Token} (hs : t.text = s ++ "</sup>".toList)
          (hs' : t.text = s' ++ "</sup>".toList) : s = s' :=
        List.append_cancel_right (hs.symm.trans hs')
      rcases List.append_eq_append_iff.1 join with
        ⟨m, rfl, split'⟩ | ⟨m, rfl, split'⟩
      · cases m with
        | nil =>
          obtain ⟨rfl, -⟩ := List.cons.inj split'
          rw [here written written', List.append_nil]
        | cons u m =>
          obtain ⟨rfl, -⟩ := List.cons.inj split'
          simp [written]
      · cases m with
        | nil =>
          obtain ⟨rfl, -⟩ := List.cons.inj split'
          rw [here written written', List.append_nil]
        | cons u m =>
          obtain ⟨rfl, -⟩ := List.cons.inj split'
          have ends := Token.endsPower_iff.2 ⟨s', written'⟩
          rw [endless _ (by simp)] at ends
          cases ends
    have cut : cutAt? "</sup>".toList (unlex front ++ (t.text ++ after)) =
        some (unlex front ++ s, after) :=
      cutAt?_eq_some_iff.2 ⟨by simp [written], first⟩
    rw [cut, Option.map_some]

/-! ## The power at the front -/

theorem exponent?_of_unclosed {s : Text} (unclosed : '>' ∉ s) :
    exponent? s = none := by
  have unread : Tag.read? (trimStart s) = none := by
    rw [Option.eq_none_iff_forall_ne_some]
    rintro ⟨t, rest⟩ read
    refine unclosed ((trimStart_isSuffix s).subset ?_)
    rw [← Tag.text_append_of_read? read]
    simp [Tag.text]
  rw [exponent?, unread, Option.bind_none]

theorem exponent?_blank {c : Char} (blank : isBlank c = true) (s : Text) :
    exponent? (c :: s) = exponent? s := by
  rw [exponent?, exponent?, trimStart, List.dropWhile_cons_of_pos blank]
  rfl

theorem exponent?_tag {t : Tag} (sound : t.Sound) (s : Text) :
    exponent? (t.text ++ s) =
      if t.opens "sup".toList then (cutAt? "</sup>".toList s).map Prod.fst
      else none := by
  have front : trimStart (t.text ++ s) = t.text ++ s :=
    List.dropWhile_cons_of_neg (by decide)
  have read : Tag.read? (t.text ++ s) = some (t, s) :=
    Tag.readAfter?_eq_some_iff.2 ⟨sound, by simp⟩
  rw [exponent?, front, read, Option.bind_some]

/-- Neither an entity nor a character other than a blank begins a power. -/
theorem exponent?_untagged {t : Token} {s : Text} (first : t.Stands s)
    (untagged : ∀ u, t ≠ .tag u)
    (shown : ∀ c, t = .char c → isBlank c = false) :
    exponent? (t.text ++ s) = none := by
  cases t with
  | tag u => exact absurd rfl (untagged u)
  | entity e => rfl
  | char c =>
    have front : trimStart ([c] ++ s) = c :: s :=
      List.dropWhile_cons_of_neg (ne_true_of_eq_false (shown c rfl))
    rw [Token.text, exponent?, front, Tag.read?_eq_none first.1,
      Option.bind_none]

/-! ## Fractions -/

def Token.tag? : Token → Option Tag
  | tag t => some t
  | _ => none

theorem map_tag_splitTags (ts : List Token) :
    (splitTags ts).2.map Tagged.tag = ts.filterMap Token.tag? := by
  induction ts with
  | nil => rfl
  | cons t ts ih =>
    cases t with
    | tag t => rw [splitTags_tag, List.map_cons, ih]; rfl
    | entity e => exact ih
    | char c => exact ih

/-- How a tag counts when the end of a span is looked for. -/
def Tag.spanMark (t : Tag) : Bool × Bool :=
  (t.opens "span".toList, t.closes "span".toList)

theorem isSome_spanEnd?_congr {us us' : List Tagged}
    (same : us.map (·.tag.spanMark) = us'.map (·.tag.spanMark)) (depth : Nat) :
    (spanEnd? depth us).isSome = (spanEnd? depth us').isSome := by
  induction us generalizing us' depth with
  | nil =>
    obtain rfl : us' = [] := by simpa using same.symm
    rfl
  | cons u us ih =>
    cases us' with
    | nil => cases same
    | cons u' us' =>
      obtain ⟨first, rest⟩ := List.cons.inj same
      obtain ⟨opens, closes⟩ := Prod.mk.inj first
      cases depth with
      | zero =>
        rw [spanEnd?, spanEnd?, opens, closes]
        split
        · rw [Option.isSome_map, Option.isSome_map, ih rest]
        · split
          · rfl
          · rw [Option.isSome_map, Option.isSome_map, ih rest]
      | succ depth =>
        rw [spanEnd?, spanEnd?, opens, closes]
        split
        · rw [Option.isSome_map, Option.isSome_map, ih rest]
        · split
          · split <;> rw [Option.isSome_map, Option.isSome_map, ih rest]
          · rw [Option.isSome_map, Option.isSome_map, ih rest]

/-- Whether the end of a span is read depends on the tags that begin and end
spans only. -/
theorem isSome_readSpan?_congr {ts ts' : List Token}
    (same : (ts.filterMap Token.tag?).map Tag.spanMark =
      (ts'.filterMap Token.tag?).map Tag.spanMark) :
    (readSpan? ts).isSome = (readSpan? ts').isSome := by
  rw [readSpan?, readSpan?, Option.isSome_map, Option.isSome_map]
  refine isSome_spanEnd?_congr ?_ 0
  rwa [← map_tag_splitTags, ← map_tag_splitTags, List.map_map,
    List.map_map] at same

namespace ReadsAs

variable {markup : Text} {ts front back : List Token}

/-- The tags of a markup are those it is read as. -/
theorem mem_of_mem_tokens (h : ReadsAs markup ts) {t : Tag}
    (ht : .tag t ∈ tokens markup) : .tag t ∈ ts := by
  obtain ⟨us, whole, untagged⟩ := h.exists_tokens
  rw [whole] at ht
  exact (List.mem_append.1 ht).resolve_right (untagged t)

theorem forall_tag_append (h : ReadsAs markup back) {p : Tag → Bool}
    (none : ∀ t, .tag t ∈ front ++ back → p t = false) :
    ∀ t, .tag t ∈ front ++ tokens markup → p t = false := by
  intro t ht
  rcases List.mem_append.1 ht with ht | ht
  · exact none t (List.mem_append_left _ ht)
  · exact none t (List.mem_append_right _ (h.mem_of_mem_tokens ht))

theorem filterMap_tag?_tokens (h : ReadsAs markup ts) :
    (tokens markup).filterMap Token.tag? = ts.filterMap Token.tag? := by
  obtain ⟨us, whole, untagged⟩ := h.exists_tokens
  have none : us.filterMap Token.tag? = [] := by
    rw [List.filterMap_eq_nil_iff]
    intro u hu
    cases u with
    | tag t => exact absurd hu (untagged t)
    | entity e => rfl
    | char c => rfl
  rw [whole, List.filterMap_append, none, List.append_nil]

theorem exists_rest (h : ReadsAs markup (front ++ back)) :
    ∃ s, tokens markup = front ++ tokens s ∧ ReadsAs s back := by
  obtain ⟨s, rfl, lexed, later⟩ := h.of_append
  exact ⟨s, lexed.tokens_append, later⟩

theorem fractionReading?_none (h : ReadsAs markup ts)
    (plain : ∀ t, .tag t ∈ ts → t.opensFraction = false) :
    fractionReading? markup = none :=
  fractionReading?_of_none rfl fun t ht => plain t (h.mem_of_mem_tokens ht)

section

variable {opening : Tag} (opens : opening.opensFraction = true)

include opens

theorem fractionReading?_unread
    (h : ReadsAs markup (front ++ .tag opening :: back))
    (last : ∀ t, .tag t ∈ back → t.opensFraction = false)
    (unread : (readSpan? back).isSome = false) :
    fractionReading? markup = none := by
  rw [List.append_cons] at h
  obtain ⟨s, whole, later⟩ := h.exists_rest
  rw [← List.append_cons] at whole
  have unread' : readSpan? (tokens s) = none := by
    rw [← Option.not_isSome_iff_eq_none,
      isSome_readSpan?_congr (congrArg _ later.filterMap_tag?_tokens), unread]
    exact Bool.false_ne_true
  rw [fractionReading?_of_last rfl whole opens fun t ht =>
    last t (later.mem_of_mem_tokens ht), unread', Option.bind_none]

/-- The unit of the last fraction is made of the sides of the line in its
forest; its rest is what follows. -/
theorem fractionReading?_forest {f : Forest} {closing : Tag}
    (h : ReadsAs markup
      (front ++ .tag opening :: (f.toTokens ++ .tag closing :: back)))
    (nested : f.Nested) (closes : closing.closes "span".toList = true)
    (last : ∀ t, .tag t ∈ f.toTokens ++ back → t.opensFraction = false) :
    ∃ s, ReadsAs s back ∧ fractionReading? markup =
      f.fraction?.bind fun (above, below) =>
      (fractionBase? above.text below.text).map fun unit => (unit, s) := by
  have split (ts : List Token) :
      front ++ .tag opening :: (f.toTokens ++ .tag closing :: ts) =
      (front ++ .tag opening :: (f.toTokens ++ [.tag closing])) ++ ts := by simp
  rw [split] at h
  obtain ⟨s, whole, later⟩ := h.exists_rest
  rw [← split] at whole
  refine ⟨s, later, ?_⟩
  rw [fractionReading?_of_forest rfl whole opens nested closes
    (later.forall_tag_append last), unlex_tokens]

end

end ReadsAs

/-! ## Italic units -/

/-- The unit that the last element in italics holds, and the markup after the
element. -/
def italicReading? (markup : Text) : Option (Text × Text) :=
  (lastTag? (·.opens ['i']) (taggedTexts markup)).bind
    fun (opening, following) =>
    (untilTag? (·.closes ['i']) following).bind fun (inside, after) =>
      let unit := unitText (opening.after ++ inside)
      if unit.isEmpty then none else some (unit, after)

theorem italicUnit?_eq (markup : Text) :
    italicUnit? markup = (italicReading? markup).map fun (unit, after) =>
      unit ++ power after := by
  rw [italicUnit?, italicReading?]
  cases lastTag? (·.opens ['i']) (taggedTexts markup) with
  | none => rfl
  | some found =>
    obtain ⟨opening, following⟩ := found
    simp only [Option.bind_some]
    cases untilTag? (·.closes ['i']) following with
    | none => rfl
    | some sides =>
      simp only [Option.bind_some]
      split <;> rfl

section

variable {p : Tag → Bool} {ts front : List Token} {t : Tag}

/-- Either no tag has the property, or there is a first one. -/
theorem exists_first_tag (p : Tag → Bool) (ts : List Token) :
    (∀ u, .tag u ∈ ts → p u = false) ∨
      ∃ front t back, ts = front ++ .tag t :: back ∧ p t = true ∧
        ∀ u, .tag u ∈ front → p u = false := by
  cases found : ts.find? (·.tag?.any p) with
  | none =>
    refine .inl fun u hu => ?_
    have none := List.find?_eq_none.1 found _ hu
    simpa [Token.tag?] using none
  | some u =>
    obtain ⟨hu, front, back, rfl, before⟩ :=
      List.find?_eq_some_iff_append.1 found
    cases u with
    | tag t =>
      exact .inr ⟨front, t, back, rfl, hu,
        fun v hv => by simpa [Token.tag?] using before _ hv⟩
    | entity e => cases hu
    | char c => cases hu

theorem untilTag?_eq_none (h : ∀ u, .tag u ∈ ts → p u = false) :
    untilTag? p (splitTags ts).2 = none := by
  induction ts with
  | nil => rfl
  | cons u ts ih =>
    have rest := ih fun v hv => h v (List.mem_cons_of_mem u hv)
    cases u with
    | tag v =>
      rw [splitTags_tag, untilTag?,
        if_neg (ne_true_of_eq_false (h v List.mem_cons_self)), rest,
        Option.map_none]
    | entity e => exact rest
    | char c => exact rest

theorem untilTag?_append (ht : p t = true)
    (first : ∀ u, .tag u ∈ front → p u = false) (back : List Token) :
    ∃ s, untilTag? p (splitTags (front ++ .tag t :: back)).2 =
      some (s, unlex back) ∧
      (splitTags (front ++ .tag t :: back)).1 ++ s = unlex front := by
  induction front with
  | nil =>
    refine ⟨[], ?_, rfl⟩
    rw [List.nil_append, splitTags_tag, untilTag?, if_pos ht, unlex_splitTags]
  | cons u front ih =>
    obtain ⟨s, found, join⟩ :=
      ih fun v hv => first v (List.mem_cons_of_mem u hv)
    rw [List.cons_append, unlex_cons, ← join]
    cases u with
    | tag v =>
      refine ⟨v.text ++ ((splitTags (front ++ .tag t :: back)).1 ++ s), ?_, rfl⟩
      rw [splitTags_tag, untilTag?,
        if_neg (ne_true_of_eq_false (first v List.mem_cons_self)), found]
      simp [Tagged.text]
    | entity e =>
      refine ⟨s, ?_, ?_⟩
      · rw [splitTags_untagged (by simp), found]
      · rw [splitTags_untagged (by simp), List.append_assoc]
    | char c =>
      refine ⟨s, ?_, ?_⟩
      · rw [splitTags_untagged (by simp), found]
      · rw [splitTags_untagged (by simp), List.append_assoc]

end

/-- The last element in italics, in tokens: what it holds, and the markup after
it. -/
theorem italicReading?_of_last {markup : Text} {front inside back : List Token}
    {opening closing : Tag}
    (whole : tokens markup =
      front ++ .tag opening :: (inside ++ .tag closing :: back))
    (opens : opening.opens ['i'] = true) (closes : closing.closes ['i'] = true)
    (first : ∀ t, .tag t ∈ inside → t.closes ['i'] = false)
    (last : ∀ t, .tag t ∈ inside ++ back → t.opens ['i'] = false) :
    italicReading? markup =
      if (unitText (unlex inside)).isEmpty then none
      else some (unitText (unlex inside), unlex back) := by
  have last' : ∀ t, .tag t ∈ inside ++ .tag closing :: back →
      t.opens ['i'] = false :=
    forall_tag_around.2 ⟨Tag.not_opens_of_closes closes ['i'], last⟩
  obtain ⟨w, found, join⟩ := untilTag?_append closes first back
  rw [italicReading?, taggedTexts, whole, lastTag?_append opens last',
    Option.bind_some]
  simp only [found, join, Option.bind_some]

namespace ReadsAs

variable {markup : Text} {ts front inside back : List Token}

theorem italicReading?_none (h : ReadsAs markup ts)
    (plain : ∀ t, .tag t ∈ ts → t.opens ['i'] = false) :
    italicReading? markup = none := by
  rw [italicReading?, taggedTexts,
    lastTag?_eq_none fun t ht => plain t (h.mem_of_mem_tokens ht),
    Option.bind_none]

section

variable {opening : Tag} (opens : opening.opens ['i'] = true)

include opens

theorem italicReading?_unread
    (h : ReadsAs markup (front ++ .tag opening :: back))
    (last : ∀ t, .tag t ∈ back → t.opens ['i'] = false)
    (unclosed : ∀ t, .tag t ∈ back → t.closes ['i'] = false) :
    italicReading? markup = none := by
  rw [List.append_cons] at h
  obtain ⟨s, whole, later⟩ := h.exists_rest
  rw [← List.append_cons] at whole
  rw [italicReading?, taggedTexts, whole,
    lastTag?_append opens fun t ht => last t (later.mem_of_mem_tokens ht),
    Option.bind_some]
  simp only [untilTag?_eq_none fun t ht =>
    unclosed t (later.mem_of_mem_tokens ht), Option.bind_none]

/-- An italic unit is what the last element in italics holds. -/
theorem italicReading?_closed {closing : Tag}
    (h : ReadsAs markup
      (front ++ .tag opening :: (inside ++ .tag closing :: back)))
    (closes : closing.closes ['i'] = true)
    (first : ∀ t, .tag t ∈ inside → t.closes ['i'] = false)
    (last : ∀ t, .tag t ∈ inside ++ back → t.opens ['i'] = false) :
    ∃ s, ReadsAs s back ∧ italicReading? markup =
      if (unitText (unlex inside)).isEmpty then none
      else some (unitText (unlex inside), s) := by
  have split (ts : List Token) :
      front ++ .tag opening :: (inside ++ .tag closing :: ts) =
      (front ++ .tag opening :: (inside ++ [.tag closing])) ++ ts := by simp
  rw [split] at h
  obtain ⟨s, whole, later⟩ := h.exists_rest
  rw [← split] at whole
  refine ⟨s, later, ?_⟩
  rw [italicReading?_of_last whole opens closes first
    (later.forall_tag_append last), unlex_tokens]

end

end ReadsAs

end Worksheet.Markup

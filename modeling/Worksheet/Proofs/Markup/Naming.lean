import Mathlib.Data.List.Basic
import Worksheet.Proofs.Markup.Nesting
import Worksheet.Proofs.Markup.Plain

/-!
# Named tags

A tag is written by its name, behind a slash when it closes, and its attributes,
which do not go on with the name. In a markup in which each `<` begins such a
tag, the tags are read as they are written, whatever entities stand between
them.
-/

namespace Worksheet.Markup

open Text

namespace Tag

/-- The tag of a name as written, and of attributes. -/
def ofName (closing : Bool) (name attributes : Text) : Tag :=
  ⟨(if closing then ['/'] else []) ++ (name ++ attributes)⟩

section

variable {name attributes : Text} (ne : name ≠ [])
  (word : ∀ c ∈ name, c.isAlphanum = true)
  (ends : attributes.head?.all (!·.isAlphanum) = true) (closing : Bool)

include ne word

theorem isClosing_ofName :
    (ofName closing name attributes).isClosing = closing := by
  cases closing with
  | true => rfl
  | false =>
    cases name with
    | nil => exact absurd rfl ne
    | cons c name =>
      have letter := word c List.mem_cons_self
      have other : c ≠ '/' := by
        rintro rfl
        exact absurd letter (by decide)
      simpa [isClosing, ofName] using other

theorem label_ofName :
    (ofName closing name attributes).label = name ++ attributes := by
  rw [label, isClosing_ofName ne word]
  cases closing <;> rfl

include ends

theorem name_ofName :
    (ofName closing name attributes).name = name.map Char.toLower := by
  have cut : attributes.takeWhile Char.isAlphanum = [] := by
    cases attributes with
    | nil => rfl
    | cons c attributes =>
      exact List.takeWhile_cons_of_neg (by simpa using ends)
  rw [Tag.name, label_ofName ne word, List.takeWhile_append_of_pos word, cut,
    List.append_nil]

theorem attributes_ofName :
    (ofName closing name attributes).attributes = attributes := by
  rw [Tag.attributes, label_ofName ne word, List.dropWhile_append_of_pos word]
  cases attributes with
  | nil => rfl
  | cons c attributes => exact List.dropWhile_cons_of_neg (by simpa using ends)

end

/-- A tag is written by what is read from it. -/
theorem ofName_read (t : Tag) :
    ofName t.isClosing (t.label.takeWhile Char.isAlphanum) t.attributes =
      t := by
  rw [ofName, attributes, List.takeWhile_append_dropWhile, label]
  obtain ⟨body⟩ := t
  cases body with
  | nil => rfl
  | cons c body =>
    by_cases slash : c = '/'
    · subst slash
      rfl
    · simp [isClosing, slash]

/-- The attributes do not go on with the name. -/
theorem ends_attributes (t : Tag) :
    t.attributes.head?.all (!·.isAlphanum) = true := by
  rw [attributes]
  cases split : t.label.dropWhile Char.isAlphanum with
  | nil => rfl
  | cons c rest =>
    have other := List.head?_dropWhile_not Char.isAlphanum t.label
    rw [split] at other
    simpa using other

/-- A tag with a name that begins with a letter, as in `<name attributes>` and
`</name attributes>`. -/
inductive Named : Tag → Prop where
  | ofName (closing : Bool) {name attributes : Text}
    (letter : name.head?.any Char.isAlpha = true)
    (word : ∀ c ∈ name, c.isAlphanum = true)
    (ends : attributes.head?.all (!·.isAlphanum) = true)
    (unclosed : '>' ∉ attributes) : Named (ofName closing name attributes)

theorem exists_letter_first {s : Text} (h : s.head?.any Char.isAlpha = true) :
    ∃ c rest, s = c :: rest ∧ c.isAlpha = true := by
  cases s with
  | nil => cases h
  | cons c rest => exact ⟨c, rest, rfl, h⟩

theorem named_iff {t : Tag} :
    t.Named ↔ t.label.head?.any Char.isAlpha = true ∧ '>' ∉ t.body := by
  constructor
  · rintro (@⟨closing, name, attributes, letter, word, ends, unclosed⟩)
    obtain ⟨c, rest, rfl, -⟩ := exists_letter_first letter
    rw [label_ofName (List.cons_ne_nil c rest) word]
    have inside : '>' ∉ c :: rest := fun mem => absurd (word _ mem) (by decide)
    refine ⟨letter, ?_⟩
    cases closing <;> simp_all [Tag.ofName]
  · rintro ⟨letter, unclosed⟩
    rw [← ofName_read t]
    refine .ofName _ ?_ (List.all_eq_true.1 List.all_takeWhile) ?_ ?_
    · obtain ⟨c, rest, split, first⟩ := exists_letter_first letter
      rw [split, List.takeWhile_cons_of_pos (isAlphanum_of_isAlpha first)]
      exact first
    · exact ends_attributes t
    · intro mem
      refine unclosed ?_
      have inLabel : '>' ∈ t.label := (List.dropWhile_sublist _).mem mem
      rw [label] at inLabel
      split at inLabel
      · exact List.mem_of_mem_drop inLabel
      · exact inLabel

instance : DecidablePred Named := fun _ => decidable_of_iff _ named_iff.symm

theorem Named.sound {t : Tag} (h : t.Named) : t.Sound := by
  obtain ⟨letter, unclosed⟩ := named_iff.1 h
  obtain ⟨c, rest, split, first⟩ := exists_letter_first letter
  refine ⟨?_, ?_, unclosed⟩
  · cases closing : t.isClosing with
    | true =>
      have slash : t.body.head? = some '/' := by simpa [isClosing] using closing
      rw [slash]
      rfl
    | false =>
      rw [label, closing] at split
      have body : t.body = c :: rest := split
      simp [body, beginsBody, first]
  · have word :
        t.name =
          c.toLower :: (rest.takeWhile Char.isAlphanum).map Char.toLower := by
      rw [name, split, List.takeWhile_cons_of_pos (isAlphanum_of_isAlpha first)]
      rfl
    rw [isBody, word]
    rfl

end Tag

/-- A token of a markup in which each `<` begins a named tag. -/
def Token.WellFormed : Token → Prop
  | tag t => t.Named
  | entity _ => False
  | char c => c ≠ '<'

instance : DecidablePred Token.WellFormed
  | .tag t => inferInstanceAs (Decidable t.Named)
  | .entity _ => .isFalse id
  | .char c => inferInstanceAs (Decidable (c ≠ '<'))

theorem splitTags_map_char_append (s : Text) (ts : List Token) :
    splitTags (s.map .char ++ ts) =
      (s ++ (splitTags ts).1, (splitTags ts).2) := by
  induction s with
  | nil => rfl
  | cons c s ih =>
    rw [List.map_cons, List.cons_append, splitTags_untagged (by simp), ih]; rfl

/-- Tags are found alike whether a character in front of them begins an entity
or not. -/
theorem splitTags_tokens_cons {c : Char} (h : c ≠ '<') (s : Text) :
    splitTags (tokens (c :: s)) =
      (c :: (splitTags (tokens s)).1, (splitTags (tokens s)).2) := by
  have tag : Tag.read? (c :: s) = none :=
    Tag.read?_eq_none fun hc => absurd hc h
  by_cases amp : c = '&'
  · subst amp
    cases read : Entity.readAfter? s with
    | none =>
      rw [tokens_char tag fun _ => read]
      rfl
    | some found =>
      -- Its characters one by one hold no more tags than the entity, and are
      -- written alike.
      obtain ⟨-, whole, apart⟩ := tokens_of_entity read
      rw [whole, apart, splitTags_map_char_append, splitTags_untagged (by simp)]
      rfl
  · rw [tokens_char tag fun hc => absurd hc amp]
    rfl

/-- The tags of a well-formed markup are found as they are written. -/
theorem splitTags_tokens_unlex {ts : List Token} (h : ∀ t ∈ ts, t.WellFormed) :
    splitTags (tokens (unlex ts)) = splitTags ts := by
  induction ts with
  | nil => rw [unlex, List.flatMap_nil, tokens]
  | cons t ts ih =>
    have first := h t List.mem_cons_self
    have rest := ih fun u hu => h u (List.mem_cons_of_mem t hu)
    cases t with
    | tag u =>
      have stands : (Token.tag u).Stands (unlex ts) := Tag.Named.sound first
      rw [unlex_cons, stands.tokens, splitTags_tag, splitTags_tag, rest]
    | entity e => exact absurd first id
    | char c =>
      have written : unlex (.char c :: ts) = c :: unlex ts := rfl
      rw [written, splitTags_tokens_cons first, rest]
      rfl

end Worksheet.Markup

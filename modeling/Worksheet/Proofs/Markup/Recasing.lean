import Mathlib.Data.List.Basic
import Mathlib.Data.List.Forall2
import Worksheet.Proofs.Markup.Naming

/-!
# Letter case of tag names

Markups that differ in the letter case of the names inside tags only have tokens
that differ there only. Each such markup can be brought to a common form, in
which the names are written in capitals.
-/

namespace Worksheet.Markup

open Text

/-! ## Tags that differ in the letter case of their names -/

/-- The tags open or close an element of the same name, with the
same attributes. -/
structure Tag.Alike (t t' : Tag) : Prop where
  isClosing : t.isClosing = t'.isClosing
  name : t.name = t'.name
  attributes : t.attributes = t'.attributes

/-- The tokens are the same but for the letter case of the name in a tag. -/
inductive Token.Recased : Token → Token → Prop where
  | same (t : Token) : Recased t t
  | tag (closing : Bool) {name name' attributes : Text}
    (word : ∀ c ∈ name, c.isAlphanum = true)
      (letters : SameLetters name name')
      (ends : attributes.head?.all (!·.isAlphanum) = true) :
      Recased (.tag (.ofName closing name attributes))
        (.tag (.ofName closing name' attributes))

/-- The second markup is the first one with the names in some of its tags
written in other letter cases. -/
def Recased (m m' : Text) : Prop :=
  ∃ ts, List.Forall₂ Token.Recased (tokens m) ts ∧ m' = unlex ts

/-- Tokens with the same meaning: the same one, or tags that are alike. -/
inductive Token.Alike : Token → Token → Prop where
  | same (t : Token) : Alike t t
  | tag {t t' : Tag} (alike : t.Alike t') : Alike (.tag t) (.tag t')

theorem Token.Recased.alike {t t' : Token} (h : t.Recased t') : t.Alike t' := by
  cases h with
  | same => exact .same t
  | @tag closing name name' attributes word letters ends =>
    cases name with
    | nil =>
      have none : name' = [] := by simpa [SameLetters] using letters.symm
      subst none
      exact .same _
    | cons c name =>
      have ne : name' ≠ [] := by
        rintro rfl
        cases letters
      have word' : ∀ d ∈ name', d.isAlphanum = true := letters.isAlphanum word
      refine .tag ⟨?_, ?_, ?_⟩
      · rw [Tag.isClosing_ofName (List.cons_ne_nil c name) word,
          Tag.isClosing_ofName ne word']
      · rw [Tag.name_ofName (List.cons_ne_nil c name) word ends,
          Tag.name_ofName ne word' ends]
        exact letters
      · rw [Tag.attributes_ofName (List.cons_ne_nil c name) word ends,
          Tag.attributes_ofName ne word' ends]

/-! ## Tokens are kept -/

/-- What a tag begins with does not depend on letter case. -/
theorem Tag.Begins.sameLetters {s t : Text} (begins : Begins s)
    (h : SameLetters s t) : Begins t := by
  match s, t, begins, h with
  | c :: s, d :: t, begins, h =>
    obtain ⟨first, rest⟩ := List.cons.inj h
    by_cases slash : c = '/'
    · subst slash
      obtain rfl := eq_of_toLower_eq first (by decide)
      match s, t, begins, rest with
      | [], _, begins, _ => exact absurd begins not_begins_slash
      | e :: s, f :: t, begins, rest =>
        rw [begins_slash] at begins ⊢
        rw [← isAlphanum_eq_of_toLower_eq (List.cons.inj rest).1, begins]
    · have slash' : d ≠ '/' := by
        rintro rfl
        exact slash (eq_of_toLower_eq first.symm (by decide)).symm
      rw [begins_of_ne slash] at begins
      rw [begins_of_ne slash']
      rcases begins with letter | rfl
      · exact .inl (by rw [← isAlpha_eq_of_toLower_eq first, letter])
      · exact .inr (eq_of_toLower_eq first (by decide)).symm

theorem Tag.readAfter?_none_of_sameLetters {s t : Text} (h : SameLetters s t)
    (unread : readAfter? s = none) : readAfter? t = none := by
  rw [← Option.not_isSome_iff_eq_none, readAfter?_isSome_iff] at unread ⊢
  rintro ⟨begins, close⟩
  exact unread ⟨begins.sameLetters h.symm, h.symm.mem (by decide) close⟩

namespace Tag.Alike

variable {t t' : Tag} (h : t.Alike t')

include h

theorem opens (name : Text) : t.opens name = t'.opens name := by
  rw [Tag.opens, Tag.opens, h.isClosing, h.name]

theorem closes (name : Text) : t.closes name = t'.closes name := by
  rw [Tag.closes, Tag.closes, h.isClosing, h.name]

theorem endsLine : t.endsLine = t'.endsLine := by
  rw [Tag.endsLine, Tag.endsLine, h.isClosing, h.name]

theorem classes : t.classes = t'.classes := by
  rw [Tag.classes, Tag.classes, h.attributes]

theorem meaning : t.meaning = t'.meaning := by
  rw [Tag.meaning, Tag.meaning, h.endsLine, h.opens, h.opens]

theorem body : SameLetters t.body t'.body := by
  have name : SameLetters (t.label.takeWhile Char.isAlphanum)
      (t'.label.takeWhile Char.isAlphanum) :=
    h.name
  rw [← ofName_read t, ← ofName_read t', h.isClosing, h.attributes]
  exact (SameLetters.refl _).append (name.append (SameLetters.refl _))

theorem sound (ht : t.Sound) : t'.Sound := by
  obtain ⟨begins, isBody, unclosed⟩ := ht
  obtain ⟨begins', isBody'⟩ :=
    begins_body.1 ((begins_body.2 ⟨begins, isBody⟩).sameLetters h.body)
  exact ⟨begins', isBody', fun mem => unclosed
    (h.body.symm.mem (by decide) mem)⟩

end Tag.Alike

namespace Entity

/-- What is read of an entity stands in front of the first tag. -/
theorem readAfter?_isSome_iff {s : Text} :
    (readAfter? s).isSome = true ↔ ∃ e : Entity, e.Sound ∧
      e.reference ++ [';'] <+: s.takeWhile (· != '<') := by
  constructor
  · intro read
    obtain ⟨⟨e, rest⟩, read⟩ := Option.isSome_iff_exists.1 read
    obtain ⟨sound, rfl⟩ := readAfter?_eq_some_iff.1 read
    have untagged : '<' ∉ e.reference ++ [';'] := by
      intro hc
      rcases List.mem_append.1 hc with hc | hc
      · exact absurd (sound.reference '<' hc) (by decide)
      · exact absurd (List.mem_singleton.1 hc) (by decide)
    refine ⟨e, sound, rest.takeWhile (· != '<'), ?_⟩
    rw [← List.takeWhile_append_of_pos (bne_of_not_mem untagged),
      List.append_assoc]
    rfl
  · rintro ⟨e, sound, front⟩
    obtain ⟨rest, join⟩ := front.trans (List.takeWhile_prefix _)
    rw [readAfter?_eq_some_iff.2
      ⟨sound, by rw [← join, List.append_assoc]; rfl⟩]
    rfl

theorem readAfter?_none_of_takeWhile {s t : Text}
    (h : s.takeWhile (· != '<') = t.takeWhile (· != '<'))
    (unread : readAfter? s = none) : readAfter? t = none := by
  rw [← Option.not_isSome_iff_eq_none, readAfter?_isSome_iff] at unread ⊢
  rwa [← h]

end Entity

theorem Token.Alike.text {t t' : Token} (h : t.Alike t') :
    SameLetters t.text t'.text := by
  cases h with
  | same => exact .refl _
  | tag alike =>
    exact (SameLetters.refl ['<']).append (alike.body.append (.refl ['>']))

section

variable {ts ts' : List Token} {after : Text}
  (h : List.Forall₂ Token.Alike ts ts')

include h

theorem sameLetters_unlex : SameLetters (unlex ts) (unlex ts') := by
  induction h with
  | nil => exact .refl _
  | @cons t t' ts ts' first rest ih =>
    rw [unlex_cons, unlex_cons]
    exact first.text.append ih

/-- Nothing differs in front of the first tag. -/
theorem takeWhile_unlex (after : Text) :
    (unlex ts ++ after).takeWhile (· != '<') =
    (unlex ts' ++ after).takeWhile (· != '<') := by
  induction h with
  | nil => rfl
  | @cons t t' ts ts' first rest ih =>
    cases first with
    | same =>
      rw [unlex_cons, unlex_cons, List.append_assoc, List.append_assoc]
      simp only [List.takeWhile_append, ih]
    | tag alike => rfl

/-- Tokens are read again when names in their tags are written in other letter
cases. -/
theorem Lexed.alike (lexed : Lexed ts after) : Lexed ts' after := by
  induction h with
  | nil => exact .nil
  | @cons t t' ts ts' first rest ih =>
    cases lexed with
    | cons stands lexed =>
      refine .cons ?_ (ih lexed)
      cases first with
      | tag alike => exact alike.sound stands
      | same =>
        cases t with
        | tag t => exact stands
        | entity e => exact stands
        | char c =>
          -- A tag begins at the same characters in both cases, and an entity
          -- ends in front of tags.
          refine ⟨?_, ?_⟩
          · intro hc
            exact Tag.readAfter?_none_of_sameLetters
              ((sameLetters_unlex rest).append (.refl after))
              (stands.1 hc)
          · intro hc
            exact Entity.readAfter?_none_of_takeWhile
              (takeWhile_unlex rest after) (stands.2 hc)

end

/-- Markups that differ in the letter case of names have tokens that differ
there. -/
theorem Recased.tokens {m m' : Text} (h : Recased m m') :
    List.Forall₂ Token.Recased (tokens m) (Markup.tokens m') := by
  obtain ⟨ts, same, rfl⟩ := h
  have lexed := (lexed_tokens m).alike (same.imp fun _ _ => Token.Recased.alike)
  rwa [lexed.tokens_unlex]

/-- Tokens are the same but for the letter case of a name when they are
alike. -/
theorem Token.recased_iff {t t' : Token} : t.Recased t' ↔ t.Alike t' := by
  refine ⟨Token.Recased.alike, ?_⟩
  rintro (_ | @⟨t, t', closing, name, attributes⟩)
  · exact .same t
  · have letters : SameLetters (t.label.takeWhile Char.isAlphanum)
        (t'.label.takeWhile Char.isAlphanum) :=
      name
    have written := Token.Recased.tag t.isClosing
      (List.all_eq_true.1 List.all_takeWhile) letters t.ends_attributes
    rwa [Tag.ofName_read, closing, attributes, Tag.ofName_read] at written

theorem recased_iff {m m' : Text} :
    Recased m m' ↔ List.Forall₂ Token.Alike (tokens m) (Markup.tokens m') := by
  constructor
  · intro h
    exact h.tokens.imp fun _ _ => Token.recased_iff.1
  · intro h
    exact ⟨tokens m', h.imp fun _ _ => Token.recased_iff.2,
      (unlex_tokens m').symm⟩

instance (t t' : Tag) : Decidable (t.Alike t') :=
  decidable_of_iff (t.isClosing = t'.isClosing ∧ t.name = t'.name ∧
    t.attributes = t'.attributes)
    ⟨fun ⟨h, h', h''⟩ => ⟨h, h', h''⟩,
      fun h => ⟨h.isClosing, h.name, h.attributes⟩⟩

instance : DecidableRel Token.Alike
  | .tag t, .tag t' => decidable_of_iff (t.Alike t') ⟨.tag, fun h => by
      cases h with
      | same => exact ⟨rfl, rfl, rfl⟩
      | tag alike => exact alike⟩
  | .entity e, t' =>
    decidable_of_iff (.entity e = t')
      ⟨fun h => h ▸ .same _, fun h => by cases h; rfl⟩
  | .char c, t' =>
    decidable_of_iff (.char c = t')
      ⟨fun h => h ▸ .same _, fun h => by cases h; rfl⟩
  | .tag t, .entity e => .isFalse nofun
  | .tag t, .char c => .isFalse nofun

instance (m m' : Text) : Decidable (Recased m m') :=
  decidable_of_iff _ recased_iff.symm

/-! ## Common forms -/

/-- A way to write the names in tags. -/
structure Recasing where
  onTag : Tag → Tag
  alike : ∀ t : Tag, t.Alike (onTag t)

namespace Recasing

variable (φ : Recasing)

def onToken : Token → Token
  | .tag t => .tag (φ.onTag t)
  | t => t

/-- Writes the names in the tags of a markup in its way. -/
def write (markup : Text) : Text := unlex ((tokens markup).map φ.onToken)

theorem alike_onToken (t : Token) : t.Alike (φ.onToken t) := by
  cases t with
  | tag t => exact .tag (φ.alike t)
  | entity e => exact .same _
  | char c => exact .same _

theorem lexed_map {ts : List Token} {after : Text} (h : Lexed ts after) :
    Lexed (ts.map φ.onToken) after := by
  refine h.alike ?_
  rw [List.forall₂_map_right_iff, List.forall₂_same]
  exact fun t _ => φ.alike_onToken t

theorem tokens_write (markup : Text) :
    tokens (φ.write markup) = (tokens markup).map φ.onToken :=
  (φ.lexed_map (lexed_tokens markup)).tokens_unlex

theorem write_unlex {ts : List Token} {after : Text} (h : Lexed ts after) :
    φ.write (unlex ts) = unlex (ts.map φ.onToken) := by
  rw [write, h.tokens_unlex]

/-- Markups have a common form when each token of one and the token in its place
in the other have. -/
theorem write_eq {m m' : Text} (h : Recased m m')
    (same : ∀ p ∈ (tokens m).zip (tokens m'), p.1.Recased p.2 →
      φ.onToken p.1 = φ.onToken p.2) :
    φ.write m = φ.write m' := by
  have pairs := h.tokens
  rw [write, write]
  congr 1
  generalize tokens m = ts at pairs same
  generalize tokens m' = ts' at pairs same
  induction pairs with
  | nil => rfl
  | @cons t t' ts ts' first rest ih =>
    rw [List.zip_cons_cons, List.forall_mem_cons] at same
    rw [List.map_cons, List.map_cons, same.1 first, ih same.2]

end Recasing

/-- The tag with its name in capitals. -/
def Tag.inCapitals (t : Tag) : Tag :=
  .ofName t.isClosing
    ((t.label.takeWhile Char.isAlphanum).map Char.toUpper) t.attributes

theorem Tag.alike_inCapitals (t : Tag) : t.Alike t.inCapitals := by
  have word : ∀ c ∈ t.label.takeWhile Char.isAlphanum, c.isAlphanum = true :=
    List.all_eq_true.1 List.all_takeWhile
  have letters : SameLetters (t.label.takeWhile Char.isAlphanum)
      ((t.label.takeWhile Char.isAlphanum).map Char.toUpper) := by
    rw [SameLetters, List.map_map]
    exact List.map_congr_left fun c hc => (toLower_toUpper (word c hc)).symm
  have recased : (Token.tag t).Recased (.tag t.inCapitals) := by
    have written := Token.Recased.tag t.isClosing word letters t.ends_attributes
    rwa [ofName_read] at written
  generalize t.inCapitals = t' at recased
  cases recased.alike with
  | same => exact ⟨rfl, rfl, rfl⟩
  | tag alike => exact alike

theorem Tag.Alike.inCapitals {t t' : Tag} (h : t.Alike t') :
    t.inCapitals = t'.inCapitals := by
  have word : ∀ c ∈ t.label.takeWhile Char.isAlphanum, c.isAlphanum = true :=
    List.all_eq_true.1 List.all_takeWhile
  have name : SameLetters (t.label.takeWhile Char.isAlphanum)
      (t'.label.takeWhile Char.isAlphanum) :=
    h.name
  rw [Tag.inCapitals, Tag.inCapitals, h.isClosing, h.attributes,
    name.map_toUpper word]

/-- Writes names in capitals. -/
def Recasing.capitals : Recasing := ⟨Tag.inCapitals, Tag.alike_inCapitals⟩

end Worksheet.Markup

import Mathlib.Data.List.Basic
import Worksheet.Markup.Token
import Worksheet.Proofs.Text.Letters
import Worksheet.Proofs.Text.Trim

/-!
# Tokens read back

A tag or an entity is read the same whatever follows it, and a character is a
token of its own when neither begins with it. Tokens that were read from a
markup are therefore read again from a part of the markup that is cut out
between tokens, also when the part is set off by line feeds.
-/

namespace Worksheet.Markup

open Text

/-! ## Tags -/

namespace Tag

/-- A tag that can be read. -/
structure Sound (t : Tag) : Prop where
  begins : t.body.head?.any beginsBody = true
  isBody : isBody t.body = true
  unclosed : '>' ∉ t.body

theorem cutAtClose?_eq_some_iff {s body rest : Text} :
    cutAtClose? s = some (body, rest) ↔
      '>' ∉ body ∧ s = body ++ '>' :: rest := by
  induction s generalizing body with
  | nil => simp [cutAtClose?]
  | cons c s ih =>
    rw [cutAtClose?]
    split
    · next hc =>
      subst hc
      cases body with
      | nil => simp
      | cons d body => simp +contextual [eq_comm]
    · next hc =>
      cases body with
      | nil => simp [hc]
      | cons d body =>
        have found := @ih body
        simp only [Option.map_eq_some_iff, Prod.exists, Prod.mk.injEq,
          List.cons.injEq, List.cons_append, List.mem_cons, not_or]
        constructor
        · rintro ⟨a, b, hab, ⟨rfl, rfl⟩, rfl⟩
          obtain ⟨free, join⟩ := found.1 hab
          exact ⟨⟨Ne.symm hc, free⟩, rfl, join⟩
        · rintro ⟨⟨-, free⟩, rfl, join⟩
          exact ⟨body, rest, found.2 ⟨free, join⟩, ⟨rfl, rfl⟩, rfl⟩

/-- What is read is a sound tag at the front of the text. -/
theorem readAfter?_eq_some_iff {s rest : Text} {t : Tag} :
    readAfter? s = some (t, rest) ↔ t.Sound ∧ s = t.body ++ '>' :: rest := by
  constructor
  · intro h
    rw [readAfter?] at h
    split at h
    · next begins =>
      split at h
      · next body rest' cut =>
        split at h
        · next isBody =>
          cases h
          obtain ⟨free, rfl⟩ := cutAtClose?_eq_some_iff.1 cut
          refine ⟨⟨?_, isBody, free⟩, rfl⟩
          cases body with
          | nil => cases begins
          | cons c body => exact begins
        · cases h
      · cases h
    · cases h
  · rintro ⟨⟨begins, isBody, free⟩, rfl⟩
    have front : (t.body ++ '>' :: rest).head? = t.body.head? := by
      cases hbody : t.body with
      | nil =>
        rw [hbody] at begins
        cases begins
      | cons c body => rfl
    rw [readAfter?, front, if_pos begins, cutAtClose?_eq_some_iff.2 ⟨free, rfl⟩]
    exact if_pos isBody

/-- The first characters with which a tag begins. -/
def Begins : Text → Prop
  | '/' :: c :: _ => c.isAlphanum = true
  | c :: _ => c.isAlpha = true ∨ c = '!'
  | [] => False

theorem begins_slash {c : Char} {s : Text} :
    Begins ('/' :: c :: s) ↔ c.isAlphanum = true := Iff.rfl

theorem not_begins_slash : ¬ Begins ['/'] := by
  rintro (letter | eq)
  · exact absurd letter (by decide)
  · cases eq

theorem begins_of_ne {c : Char} (h : c ≠ '/') (s : Text) :
    Begins (c :: s) ↔ c.isAlpha = true ∨ c = '!' := by
  rw [Begins.eq_def]
  split
  · next heq => exact absurd (List.cons.inj heq).1 h
  · next heq => rw [(List.cons.inj heq).1]
  · next heq => cases heq

theorem begins_body {body : Text} :
    Begins body ↔ body.head?.any beginsBody = true ∧ isBody body = true := by
  cases body with
  | nil => simp [Begins]
  | cons c body =>
    by_cases slash : c = '/'
    · subst slash
      have front : beginsBody '/' = true := by decide
      cases body with
      | nil => simp [not_begins_slash, isBody, name, label, isClosing]
      | cons d body =>
        simp only [begins_slash, isBody, name, label, isClosing,
          List.head?_cons, Option.any_some, front, beq_self_eq_true, if_true,
          List.drop_one, List.tail_cons, List.takeWhile_cons]
        cases d.isAlphanum <;> simp
    · have mark : (some c == some '!') = true ↔ c = '!' := by simp
      rw [begins_of_ne slash]
      simp only [isBody, name, label, isClosing, beginsBody, List.head?_cons,
        Option.any_some, Option.some_beq_some, beq_iff_eq, slash, if_false,
        Bool.or_eq_true, or_false, List.takeWhile_cons, Char.isAlphanum]
      cases c.isAlpha with
      | true => simp
      | false => simp +contextual

/-- Whether a character neither begins a body nor goes on with a name. -/
def stops (c : Char) : Bool := !beginsBody c && !c.isAlphanum

/-- What a tag begins with stands in front of a character that stops its
name. -/
theorem Begins.of_append {s t : Text} (h : Begins (s ++ t))
    (stop : t.head?.all stops = true) :
    Begins s := by
  have first {c : Char} {u : Text} (heq : t = c :: u) :
      beginsBody c = false ∧ c.isAlphanum = false := by
    subst heq
    simpa [stops] using stop
  match s, h with
  | [], h =>
    cases t with
    | nil => exact h
    | cons c t =>
      have out := (first rfl).1
      simp only [beginsBody, Bool.or_eq_false_iff, beq_eq_false_iff_ne] at out
      rw [List.nil_append, begins_of_ne out.1.2] at h
      rcases h with letter | eq
      · simp [out] at letter
      · exact absurd eq out.2
  | [c], h =>
    by_cases slash : c = '/'
    · subst slash
      cases t with
      | nil => exact h
      | cons d t =>
        rw [List.singleton_append, begins_slash, (first rfl).2] at h
        cases h
    · rw [List.singleton_append, begins_of_ne slash] at h
      exact (begins_of_ne slash []).2 h
  | c :: d :: s, h =>
    by_cases slash : c = '/'
    · subst slash
      exact h
    · exact (begins_of_ne slash _).2 ((begins_of_ne slash _).1 h)

theorem Begins.append {s : Text} (h : Begins s) (t : Text) :
    Begins (s ++ t) := by
  match s, h with
  | [c], h =>
    by_cases slash : c = '/'
    · subst slash
      exact absurd h not_begins_slash
    · exact (begins_of_ne slash _).2 ((begins_of_ne slash _).1 h)
  | c :: d :: s, h =>
    by_cases slash : c = '/'
    · subst slash
      exact h
    · exact (begins_of_ne slash _).2 ((begins_of_ne slash _).1 h)

/-- A tag is read when one begins and some `>` follows. -/
theorem readAfter?_isSome_iff {s : Text} :
    (readAfter? s).isSome = true ↔ Begins s ∧ '>' ∈ s := by
  constructor
  · intro h
    obtain ⟨⟨t, rest⟩, read⟩ := Option.isSome_iff_exists.1 h
    obtain ⟨⟨begins, isBody, -⟩, rfl⟩ := readAfter?_eq_some_iff.1 read
    exact ⟨(begins_body.2 ⟨begins, isBody⟩).append _, by simp⟩
  · rintro ⟨begins, close⟩
    obtain ⟨body, rest, rfl, free⟩ := List.eq_append_cons_of_mem close
    obtain ⟨first, isBody⟩ :=
      begins_body.1
        (begins.of_append (t := '>' :: rest) (rfl : stops '>' = true))
    rw [readAfter?_eq_some_iff.2 ⟨(⟨first, isBody, free⟩ : Sound ⟨body⟩), rfl⟩]
    rfl

end Tag

/-! ## Entities -/

namespace Entity

/-- An entity that can be read. -/
structure Sound (e : Entity) : Prop where
  unended : ';' ∉ e.reference
  short : (0 < size e.reference && size e.reference ≤ 10) = true
  character : resolve? e.reference = some e.character

/-- What is read is a sound entity at the front of the text. -/
theorem readAfter?_eq_some_iff {s rest : Text} {e : Entity} :
    readAfter? s = some (e, rest) ↔
      e.Sound ∧ s = e.reference ++ ';' :: rest := by
  constructor
  · intro h
    have join := text_append_of_readAfter? h
    simp only [text, List.cons_append, List.append_assoc, List.cons.injEq,
      true_and] at join
    rw [readAfter?] at h
    split at h
    · split at h
      · next short =>
        obtain ⟨c, resolved, he⟩ := Option.map_eq_some_iff.1 h
        cases he
        refine ⟨⟨?_, short, resolved⟩, join.symm⟩
        intro mem
        have before := List.all_eq_true.1 List.all_takeWhile _ mem
        simp at before
      · cases h
    · cases h
  · rintro ⟨⟨unended, short, character⟩, rfl⟩
    have before := bne_of_not_mem unended
    have take :
        (e.reference ++ ';' :: rest).takeWhile (· != ';') = e.reference := by
      simp [List.takeWhile_append_of_pos before]
    have drop :
        (e.reference ++ ';' :: rest).dropWhile (· != ';') = ';' :: rest := by
      simp [List.dropWhile_append_of_pos before]
    rw [readAfter?, take, drop]
    simp only [short, if_true, character, Option.map_some]

/-- Whether a reference may hold the character. -/
def isReferenceChar (c : Char) : Bool := c.isAlphanum || c == '#' || c == '+'

theorem isAlphanum_of_hexValue? {c : Char} {n : Nat}
    (h : hexValue? c = some n) :
    c.isAlphanum = true := by
  have digit (hd : c.isDigit = true) : c.isAlphanum = true := by
    have either : (c.isAlpha || c.isDigit) = true := by rw [hd, Bool.or_true]
    exact either
  have small (last : Char) (hlast : last.toNat < 128) (le : c ≤ last) :
      c.isAlphanum = true := by
    rw [Char.le_def, UInt32.le_iff_toNat_le] at le
    have checked :=
      ascii_check (f := fun c => (hexValue? c).isNone || c.isAlphanum)
        (by decide +kernel)
        (Nat.lt_of_le_of_lt le hlast)
    simpa [h] using checked
  rw [hexValue?] at h
  split at h
  · next hd => exact digit hd
  · split at h
    · next range => exact small 'f' (by decide) range.2
    · split at h
      · next range => exact small 'F' (by decide) range.2
      · cases h

theorem isAlphanum_of_hexNumber? {s : Text} {n : Nat}
    (h : hexNumber? s = some n) :
    ∀ c ∈ s, c.isAlphanum = true := by
  -- A character without a value leaves no number, and none comes back.
  have stay (s : Text) (m : Option Nat) (n : Nat)
      (h : s.foldl (fun n c => n.bind fun n => (hexValue? c).map (16 * n + ·))
        m = some n) :
      m.isSome = true ∧ ∀ c ∈ s, c.isAlphanum = true := by
    induction s generalizing m with
    | nil => simp_all
    | cons c s ih =>
      obtain ⟨some', rest⟩ := ih _ h
      obtain ⟨k, hk⟩ := Option.isSome_iff_exists.1 some'
      obtain ⟨j, rfl, hj⟩ := Option.bind_eq_some_iff.1 hk
      obtain ⟨v, hv, -⟩ := Option.map_eq_some_iff.1 hj
      exact ⟨rfl, by simpa using ⟨isAlphanum_of_hexValue? hv, rest⟩⟩
  exact (stay s _ n h).2

theorem isAlphanum_of_decimalNumber? {s : Text} {n : Nat}
    (h : decimalNumber? s = some n) :
    ∀ c ∈ s, c.isAlphanum = true := by
  rw [decimalNumber?] at h
  split at h
  · next digits =>
    intro c hc
    have either : (c.isAlpha || c.isDigit) = true := by
      rw [List.all_eq_true.1 digits c hc, Bool.or_true]
    exact either
  · cases h

theorem mem_of_unsigned? {s ds : Text} (h : unsigned? s = some ds) {c : Char}
    (hc : c ∈ s) :
    c = '+' ∨ c ∈ ds := by
  unfold unsigned? at h
  split at h
  · next ds' =>
    by_cases none : ds'.isEmpty
    · simp [none] at h
    · simp only [none, if_false, Option.some.injEq, Bool.false_eq_true] at h
      exact h ▸ List.mem_cons.1 hc
  · by_cases none : s.isEmpty
    · simp [none] at h
    · simp only [none, if_false, Option.some.injEq, Bool.false_eq_true] at h
      exact .inr (h ▸ hc)

/-- A reference holds letters, digits and the signs of a number only. -/
theorem Sound.reference {e : Entity} (h : e.Sound) :
    ∀ c ∈ e.reference, isReferenceChar c = true := by
  have word {c : Char} (hc : c.isAlphanum = true) :
      isReferenceChar c = true := by
    rw [isReferenceChar, hc, Bool.true_or, Bool.true_or]
  have known : named.all (·.1.all Char.isAlphanum) = true := by decide +kernel
  have number {s : Text} {value? : Text → Option Nat} {d : Char}
      (h : ((unsigned? s).bind value? |>.bind character?) = some d)
      (digits : ∀ ds n, value? ds = some n → ∀ c ∈ ds, c.isAlphanum = true) :
      ∀ c ∈ s, isReferenceChar c = true := by
    obtain ⟨n, hn, -⟩ := Option.bind_eq_some_iff.1 h
    obtain ⟨ds, hds, hn⟩ := Option.bind_eq_some_iff.1 hn
    intro c hc
    rcases mem_of_unsigned? hds hc with rfl | hc
    · rfl
    · exact word (digits ds n hn c hc)
  have resolved := h.character
  rw [resolve?.eq_def] at resolved
  intro c hc
  split at resolved
  · next s href =>
    rw [href] at hc
    rcases List.mem_cons.1 hc with rfl | hc
    · rfl
    rcases List.mem_cons.1 hc with rfl | hc
    · rfl
    · exact number resolved (fun _ _ => isAlphanum_of_hexNumber?) c hc
  · next s href =>
    rw [href] at hc
    rcases List.mem_cons.1 hc with rfl | hc
    · rfl
    rcases List.mem_cons.1 hc with rfl | hc
    · rfl
    · exact number resolved (fun _ _ => isAlphanum_of_hexNumber?) c hc
  · next s _ _ href =>
    rw [href] at hc
    rcases List.mem_cons.1 hc with rfl | hc
    · rfl
    · exact number resolved (fun _ _ => isAlphanum_of_decimalNumber?) c hc
  · obtain ⟨n, found, -⟩ := Option.map_eq_some_iff.1 resolved
    have name := List.find?_some found
    simp only [beq_iff_eq] at name
    have letters := List.all_eq_true.1 known n (List.mem_of_find?_eq_some found)
    exact word (List.all_eq_true.1 letters c (name ▸ hc))

/-- An entity holds none of the characters that a reference may not hold, except
for its own marks. -/
theorem Sound.not_mem_text {e : Entity} (h : e.Sound) {c : Char}
    (hc : isReferenceChar c = false) (first : c ≠ '&') (last : c ≠ ';') :
    c ∉ e.text := by
  intro mem
  rw [text, List.mem_cons, List.mem_append, List.mem_singleton] at mem
  rcases mem with mem | mem | mem
  · exact first mem
  · rw [h.reference c mem] at hc
    cases hc
  · exact last mem

end Entity

/-! ## Sequences of tokens -/

/-- The token is read in front of the text. -/
def Token.Stands : Token → Text → Prop
  | .tag t, _ => t.Sound
  | .entity e, _ => e.Sound
  | .char c, rest =>
    (c = '<' → Tag.readAfter? rest = none) ∧
      (c = '&' → Entity.readAfter? rest = none)

theorem Token.next_stands (c : Char) (s : Text) :
    (next c s).1.Stands (next c s).2 := by
  rw [next]
  split
  · next hc =>
    subst hc
    split
    · next read => exact (Tag.readAfter?_eq_some_iff.1 read).1
    · next none => exact ⟨fun _ => none, fun h => absurd h (by decide)⟩
  · next tag =>
    split
    · next hc =>
      subst hc
      split
      · next read => exact (Entity.readAfter?_eq_some_iff.1 read).1
      · next none => exact ⟨fun h => absurd h (by decide), fun _ => none⟩
    · next entity => exact ⟨fun h => absurd h tag, fun h => absurd h entity⟩

/-- A token that stands in front of a text is the next one. -/
theorem Token.Stands.tokens {t : Token} {s : Text} (h : t.Stands s) :
    tokens (t.text ++ s) = t :: tokens s := by
  cases t with
  | tag t =>
    have read :=
      Tag.readAfter?_eq_some_iff.2 ⟨h, (rfl : t.body ++ '>' :: s = _)⟩
    have join : (Token.tag t).text ++ s = '<' :: (t.body ++ '>' :: s) := by
      simp [Token.text, Tag.text]
    rw [join, Markup.tokens, Token.next, if_pos rfl, read]
  | entity e =>
    have read :=
      Entity.readAfter?_eq_some_iff.2 ⟨h, (rfl : e.reference ++ ';' :: s = _)⟩
    have join :
        (Token.entity e).text ++ s = '&' :: (e.reference ++ ';' :: s) := by
      simp [Token.text, Entity.text]
    rw [join, Markup.tokens, Token.next, if_neg (by decide), if_pos rfl, read]
  | char c =>
    have next : Token.next c s = (.char c, s) := by
      rw [Token.next]
      split
      · next hc => rw [h.1 hc]
      · split
        · next hc => rw [h.2 hc]
        · rfl
    rw [Token.text, List.singleton_append, Markup.tokens, next]

theorem Tag.text_append_of_read? {s rest : Text} {t : Tag}
    (h : Tag.read? s = some (t, rest)) :
    t.text ++ rest = s := by
  rw [Tag.read?.eq_def] at h
  split at h
  · exact Tag.text_append_of_readAfter? h
  · cases h

theorem Tag.read?_eq_none {c : Char} {s : Text}
    (h : c = '<' → Tag.readAfter? s = none) :
    Tag.read? (c :: s) = none := by
  rw [Tag.read?.eq_def]
  split
  · next heq =>
    obtain ⟨rfl, rfl⟩ := List.cons.inj heq
    exact h rfl
  · rfl

theorem Tag.length_lt_of_read? {s rest : Text} {t : Tag}
    (h : Tag.read? s = some (t, rest)) :
    rest.length < s.length := by
  rw [← Tag.text_append_of_read? h, List.length_append, Tag.text,
    List.length_cons]
  omega

theorem tokens_tag {s rest : Text} {t : Tag}
    (h : Tag.read? s = some (t, rest)) :
    tokens s = .tag t :: tokens rest := by
  obtain rfl := Tag.text_append_of_read? h
  have sound : (Token.tag t).Stands rest :=
    (Tag.readAfter?_eq_some_iff.1 (by simpa [Tag.read?, Tag.text] using h)).1
  exact sound.tokens

theorem tokens_char {c : Char} {s : Text} (tag : Tag.read? (c :: s) = none)
    (entity : c = '&' → Entity.readAfter? s = none) :
    tokens (c :: s) = .char c :: tokens s := by
  have stands : (Token.char c).Stands s :=
    ⟨fun hc => by subst hc; exact tag, entity⟩
  exact stands.tokens

/-- The tokens are read one after the other in front of the text. -/
inductive Lexed : List Token → Text → Prop where
  | nil {after : Text} : Lexed [] after
  | cons {t : Token} {ts : List Token} {after : Text}
    (first : t.Stands (unlex ts ++ after))
    (rest : Lexed ts after) : Lexed (t :: ts) after

@[simp] theorem unlex_cons (t : Token) (ts : List Token) :
    unlex (t :: ts) = t.text ++ unlex ts := rfl

@[simp] theorem unlex_append (ts us : List Token) :
    unlex (ts ++ us) = unlex ts ++ unlex us :=
  List.flatMap_append

section

variable {ts us : List Token} {s after after' : Text}

theorem Lexed.tokens_append (h : Lexed ts after) :
    tokens (unlex ts ++ after) = ts ++ tokens after := by
  induction h with
  | nil => rfl
  | cons first rest ih =>
    rw [unlex_cons, List.append_assoc, first.tokens, ih, List.cons_append]

/-- The tokens of a markup are read one after the other. -/
theorem lexed_tokens (s : Text) : Lexed (tokens s) [] := by
  fun_induction tokens s with
  | case1 => exact .nil
  | case2 c s ih =>
    refine .cons ?_ ih
    rw [unlex_tokens, List.append_nil]
    exact Token.next_stands c s

theorem Lexed.of_append (h : Lexed (ts ++ us) after) :
    Lexed ts (unlex us ++ after) ∧ Lexed us after := by
  induction ts with
  | nil => exact ⟨.nil, h⟩
  | cons t ts ih =>
    cases h with
    | cons first rest =>
      obtain ⟨front, back⟩ := ih rest
      refine ⟨.cons ?_ front, back⟩
      rwa [← List.append_assoc, ← unlex_append]

theorem Lexed.append (front : Lexed ts (unlex us ++ after))
    (back : Lexed us after) :
    Lexed (ts ++ us) after := by
  induction ts with
  | nil => exact back
  | cons t ts ih =>
    cases front with
    | cons first rest =>
      refine .cons ?_ (ih rest)
      rwa [← List.append_assoc, ← unlex_append] at first

theorem Tag.readAfter?_none_of_append (h : Tag.readAfter? (s ++ after) = none) :
    Tag.readAfter? s = none := by
  rw [Option.eq_none_iff_forall_ne_some] at h ⊢
  rintro ⟨t, rest⟩ read
  obtain ⟨sound, rfl⟩ := Tag.readAfter?_eq_some_iff.1 read
  exact h (t, rest ++ after) (Tag.readAfter?_eq_some_iff.2 ⟨sound, by simp⟩)

theorem Entity.readAfter?_none_of_append
    (h : Entity.readAfter? (s ++ after) = none) :
    Entity.readAfter? s = none := by
  rw [Option.eq_none_iff_forall_ne_some] at h ⊢
  rintro ⟨e, rest⟩ read
  obtain ⟨sound, rfl⟩ := Entity.readAfter?_eq_some_iff.1 read
  exact h (e, rest ++ after) (Entity.readAfter?_eq_some_iff.2 ⟨sound, by simp⟩)

theorem Token.Stands.of_append {t : Token} (h : t.Stands (s ++ after)) :
    t.Stands s := by
  cases t with
  | tag t => exact h
  | entity e => exact h
  | char c =>
    exact ⟨fun hc => Tag.readAfter?_none_of_append (h.1 hc),
      fun hc => Entity.readAfter?_none_of_append (h.2 hc)⟩

/-- Tokens are read again when less of the same text follows them. -/
theorem Lexed.shorten (h : Lexed ts (after ++ after')) : Lexed ts after := by
  induction ts with
  | nil => exact .nil
  | cons t ts ih =>
    cases h with
    | cons first rest =>
      rw [← List.append_assoc] at first
      exact .cons first.of_append (ih rest)

/-- What may stand after tokens in the place of other text: nothing or a line
feed, and a `>` only where there was one. -/
structure CutsOff (after' after : Text) : Prop where
  feed : after'.head?.all (· == '\n') = true
  close : '>' ∈ after' → '>' ∈ after

theorem CutsOff.eq_feed (cuts : CutsOff after' after) {c : Char} {s : Text}
    (h : after' = c :: s) :
    c = '\n' := by
  simpa [h] using cuts.feed

/-- No tag begins in front of a cut that did not begin before. -/
theorem CutsOff.tag_none (cuts : CutsOff after' after)
    (h : Tag.readAfter? (s ++ after) = none) :
    Tag.readAfter? (s ++ after') = none := by
  rw [← Option.not_isSome_iff_eq_none, Tag.readAfter?_isSome_iff] at h ⊢
  rintro ⟨begins, close⟩
  have front : Tag.Begins s := by
    apply begins.of_append
    cases hafter : after' with
    | nil => rfl
    | cons d after'' =>
      rw [cuts.eq_feed hafter]
      rfl
  refine h ⟨front.append after, ?_⟩
  rcases List.mem_append.1 close with close | close
  · exact List.mem_append_left after close
  · exact List.mem_append_right s (cuts.close close)

/-- No entity begins in front of a cut that did not begin before: a reference
holds no line feed, so that its semicolon stands in front of the cut. -/
theorem CutsOff.entity_none (cuts : CutsOff after' after)
    (h : Entity.readAfter? (s ++ after) = none) :
    Entity.readAfter? (s ++ after') = none := by
  rw [Option.eq_none_iff_forall_ne_some]
  rintro ⟨e, rest⟩ read
  obtain ⟨sound, join⟩ := Entity.readAfter?_eq_some_iff.1 read
  obtain ⟨rest', rfl⟩ : ∃ rest', s = e.reference ++ ';' :: rest' := by
    rcases List.append_eq_append_iff.1 join with
      ⟨middle, href, hafter⟩ | ⟨middle, hs, hrest⟩
    · exfalso
      cases middle with
      | nil => exact absurd (cuts.eq_feed hafter) (by decide)
      | cons d middle =>
        obtain rfl := cuts.eq_feed hafter
        exact absurd (sound.reference '\n' (by simp [href])) (by decide)
    · cases middle with
      | nil => exact absurd (cuts.eq_feed hrest.symm) (by decide)
      | cons d middle =>
        obtain ⟨rfl, -⟩ := List.cons.inj hrest
        exact ⟨middle, hs⟩
  have again : Entity.readAfter? (e.reference ++ ';' :: rest' ++ after) =
      some (e, rest' ++ after) :=
    Entity.readAfter?_eq_some_iff.2 ⟨sound, by simp⟩
  rw [h] at again
  cases again

theorem Token.Stands.cut {t : Token} (h : t.Stands (s ++ after))
    (cuts : CutsOff after' after) :
    t.Stands (s ++ after') := by
  cases t with
  | tag t => exact h
  | entity e => exact h
  | char c =>
    constructor
    · intro hc
      exact cuts.tag_none (h.1 hc)
    · intro hc
      exact cuts.entity_none (h.2 hc)

/-- Tokens are read again when what follows them is cut off. -/
theorem Lexed.cut (h : Lexed ts after) (cuts : CutsOff after' after) :
    Lexed ts after' := by
  induction ts with
  | nil => exact .nil
  | cons t ts ih =>
    cases h with
    | cons first rest => exact .cons (first.cut cuts) (ih rest)

/-- Tokens that stand one after the other are the tokens of their markup. -/
theorem Lexed.tokens_unlex (h : Lexed ts after) : tokens (unlex ts) = ts := by
  have alone : Lexed ts [] := h.cut ⟨rfl, by simp⟩
  have again := alone.tokens_append
  rwa [List.append_nil, tokens, List.append_nil] at again

theorem Lexed.meaning_unlex (h : Lexed ts after) :
    meaning (unlex ts) = ts.flatMap Token.meaning := by
  rw [meaning, h.tokens_unlex]

end

end Worksheet.Markup

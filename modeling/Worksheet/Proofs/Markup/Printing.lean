import Worksheet.Proofs.Markup.Naming

/-!
# Printed markup

A markup that is printed from texts and tags means what they mean, one after the
other. A text is printed with the signs of markup escaped, so that nothing in it
begins a tag or an entity, and it is decoded once: what looks like an entity in
it stays as it is. A tag is printed as a whole, so that it neither reaches into
what follows nor depends on it.
-/

namespace Worksheet.Markup

open Text

/-! ## What is printed -/

/-- A tag to be printed: `<name attributes>`, or `</name attributes>` when it
closes. The name begins with a letter and goes on with letters and digits, and
the attributes do not go on with it. -/
structure PrintedTag where
  closing : Bool
  name : Text
  attributes : Text
  letter : name.head?.any Char.isAlpha = true
  word : ∀ c ∈ name, c.isAlphanum = true
  ends : attributes.head?.all (!·.isAlphanum) = true
  unclosed : '>' ∉ attributes

namespace PrintedTag

def print (t : PrintedTag) : Text :=
  '<' ::
    ((if t.closing then ['/'] else []) ++ (t.name ++ t.attributes) ++ ['>'])

/-- A break of either kind and the end of a block mean a line feed, the
beginning of a script its sign, and all other tags nothing. -/
def meaning (t : PrintedTag) : Text :=
  let name := t.name.map Char.toLower
  if name = "br".toList then ['\n']
  else if t.closing then
    if blockNames.contains name then ['\n'] else []
  else if name = "sup".toList then ['^']
  else if name = "sub".toList then ['_']
  else []

/-- The tag that is read. -/
def tag (t : PrintedTag) : Tag := .ofName t.closing t.name t.attributes

end PrintedTag

/-- A part of a markup to be printed. -/
inductive Fragment where
  | text (s : Text)
  | tag (t : PrintedTag)

/-- The signs of markup are written as entities. -/
def escapeChar (c : Char) : Text :=
  if c = '&' then "&amp;".toList
  else if c = '<' then "&lt;".toList
  else if c = '>' then "&gt;".toList
  else [c]

def escape (s : Text) : Text := s.flatMap escapeChar

namespace Fragment

def print : Fragment → Text
  | text s => escape s
  | tag t => t.print

/-- A text means itself, with the minus sign of mathematics as the plain one. -/
def meaning : Fragment → Text
  | text s => s.map shownChar
  | tag t => t.meaning

end Fragment

/-- The markup of some parts. -/
def printAll (fs : List Fragment) : Text := fs.flatMap Fragment.print

/-! ## Tokens that stand alone -/

/-- The token is read in front of every text. -/
def Token.StandsAlone (t : Token) : Prop := ∀ rest, t.Stands rest

theorem Token.standsAlone_char {c : Char} (tag : c ≠ '<') (entity : c ≠ '&') :
    (Token.char c).StandsAlone := by
  intro rest
  exact ⟨fun eq => absurd eq tag, fun eq => absurd eq entity⟩

/-- Tokens that stand alone are read one after the other, whatever follows. -/
theorem lexed_of_standsAlone {ts : List Token} (h : ∀ t ∈ ts, t.StandsAlone)
    (after : Text) :
    Lexed ts after := by
  induction ts with
  | nil => exact .nil
  | cons t ts ih =>
    exact .cons (h t List.mem_cons_self _)
      (ih fun u hu => h u (List.mem_cons_of_mem t hu))

/-- Tokens that stand alone, with the text that they are written as and the text
that they mean. -/
structure Spells (ts : List Token) (written shown : Text) : Prop where
  text : unlex ts = written
  meaning : ts.flatMap Token.meaning = shown
  alone : ∀ t ∈ ts, t.StandsAlone

namespace Spells

variable {ts us : List Token} {s s' shown shown' : Text}

theorem nil : Spells [] [] [] := ⟨rfl, rfl, by simp⟩

theorem singleton {t : Token} (alone : t.StandsAlone) :
    Spells [t] t.text t.meaning := by
  refine ⟨List.append_nil _, List.append_nil _, ?_⟩
  intro u hu
  obtain rfl := List.mem_singleton.1 hu
  exact alone

theorem append (h : Spells ts s shown) (h' : Spells us s' shown') :
    Spells (ts ++ us) (s ++ s') (shown ++ shown') := by
  refine ⟨?_, ?_, ?_⟩
  · rw [unlex_append, h.text, h'.text]
  · rw [List.flatMap_append, h.meaning, h'.meaning]
  · intro t ht
    rcases List.mem_append.1 ht with ht | ht
    · exact h.alone t ht
    · exact h'.alone t ht

/-- A text is spelled character by character. -/
theorem map {f : Char → Token} {g k : Char → Text}
    (h : ∀ c ∈ s, Spells [f c] (g c) (k c)) :
    Spells (s.map f) (s.flatMap g) (s.flatMap k) := by
  induction s with
  | nil => exact nil
  | cons c s ih =>
    exact (h c List.mem_cons_self).append
      (ih fun d hd => h d (List.mem_cons_of_mem c hd))

/-- Tokens that are spelled out are read back, whatever follows them. -/
theorem tokens_append (h : Spells ts s shown) (rest : Text) :
    tokens (s ++ rest) = ts ++ tokens rest := by
  rw [← h.text]
  exact (lexed_of_standsAlone h.alone rest).tokens_append

theorem meaning_append (h : Spells ts s shown) (rest : Text) :
    Markup.meaning (s ++ rest) = shown ++ Markup.meaning rest := by
  rw [Markup.meaning, h.tokens_append, List.flatMap_append, h.meaning]
  rfl

end Spells

theorem tokens_nil : tokens [] = [] := by rw [tokens]

theorem Spells.tokens_eq {ts : List Token} {s shown : Text}
    (h : Spells ts s shown) : tokens s = ts := by
  have whole := h.tokens_append []
  rwa [tokens_nil, List.append_nil, List.append_nil] at whole

theorem Spells.meaning_eq {ts : List Token} {s shown : Text}
    (h : Spells ts s shown) :
    Markup.meaning s = shown := by
  rw [Markup.meaning, h.tokens_eq, h.meaning]

/-! ## Texts -/

/-- The token that a character of a text is printed as. -/
def escapeToken (c : Char) : Token :=
  if c = '&' then .entity ⟨"amp".toList, '&'⟩
  else if c = '<' then .entity ⟨"lt".toList, '<'⟩
  else if c = '>' then .entity ⟨"gt".toList, '>'⟩
  else .char c

/-- An escaped character is decoded once. -/
theorem spells_escapeChar (c : Char) :
    Spells [escapeToken c] (escapeChar c) [shownChar c] := by
  have entity {name : String} {d : Char}
      (sound : Entity.Sound ⟨name.toList, d⟩) :
      Spells [.entity ⟨name.toList, d⟩] (Entity.text ⟨name.toList, d⟩) [d] :=
    Spells.singleton fun _ => sound
  unfold escapeToken escapeChar
  split_ifs with amp lt gt
  · rw [amp]
    exact entity ⟨by decide, by decide, by decide⟩
  · rw [lt]
    exact entity ⟨by decide, by decide, by decide⟩
  · rw [gt]
    exact entity ⟨by decide, by decide, by decide⟩
  · exact Spells.singleton (Token.standsAlone_char lt amp)

/-! ## Tags -/

namespace PrintedTag

variable (t : PrintedTag)

theorem name_ne_nil : t.name ≠ [] := by
  obtain ⟨c, rest, split, -⟩ := Tag.exists_letter_first t.letter
  rw [split]
  exact List.cons_ne_nil c rest

/-- What is read of a tag means what was printed. -/
theorem meaning_tag : t.tag.meaning = t.meaning := by
  have name : t.tag.name = t.name.map Char.toLower :=
    Tag.name_ofName t.name_ne_nil t.word t.ends t.closing
  have closing : t.tag.isClosing = t.closing :=
    Tag.isClosing_ofName t.name_ne_nil t.word t.closing
  unfold Tag.meaning Tag.endsLine Tag.opens PrintedTag.meaning
  rw [name, closing]
  cases t.closing with
  | true => simp [ite_or]
  | false => simp

theorem spells_print : Spells [.tag t.tag] t.print t.meaning := by
  have named : t.tag.Named :=
    .ofName t.closing t.letter t.word t.ends t.unclosed
  rw [← t.meaning_tag]
  exact Spells.singleton fun _ => named.sound

end PrintedTag

/-! ## Markup -/

namespace Fragment

/-- The tokens that a part is read as. -/
def tokens : Fragment → List Token
  | text s => s.map escapeToken
  | tag t => [.tag t.tag]

/-- A part is read as printed, whatever follows it. -/
theorem spells_print (f : Fragment) : Spells f.tokens f.print f.meaning := by
  cases f with
  | text s =>
    have each := Spells.map fun c (_ : c ∈ s) => spells_escapeChar c
    have shown : s.flatMap (fun c => [shownChar c]) = s.map shownChar :=
      List.flatMap_pure_eq_map shownChar s
    rwa [shown] at each
  | tag t => exact t.spells_print

end Fragment

/-- A printed markup means what its parts mean, one after the other. -/
theorem meaning_printAll (fs : List Fragment) :
    meaning (printAll fs) = fs.flatMap Fragment.meaning := by
  induction fs with
  | nil =>
    show meaning [] = []
    rw [meaning, tokens_nil, List.flatMap_nil]
  | cons f fs ih =>
    show meaning (f.print ++ printAll fs) =
      f.meaning ++ fs.flatMap Fragment.meaning
    rw [f.spells_print.meaning_append, ih]

end Worksheet.Markup

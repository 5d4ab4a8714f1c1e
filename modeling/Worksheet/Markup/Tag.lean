import Worksheet.Text.Trim

/-!
# Tags

A tag is `<`, a body without `>`, and `>`. The body is a name, or a slash and a
name, followed by attributes; a body that begins with an exclamation mark is a
tag without a name. A `<` that begins nothing of the kind, as in a comparison,
is no tag. Names are read in lower case.
-/

namespace Worksheet.Markup

open Text

/-- A tag, by what stands between its angle brackets. -/
structure Tag where
  body : Text
  deriving DecidableEq

namespace Tag

/-- The tag as written. -/
def text (t : Tag) : Text := '<' :: (t.body ++ ['>'])

/-- Whether the tag closes an element. -/
def isClosing (t : Tag) : Bool := t.body.head? == some '/'

/-- The body after the slash of a closing tag. -/
def label (t : Tag) : Text := if t.isClosing then t.body.drop 1 else t.body

/-- The name in lower case. -/
def name (t : Tag) : Text :=
  (t.label.takeWhile Char.isAlphanum).map Char.toLower

/-- What follows the name. -/
def attributes (t : Tag) : Text := t.label.dropWhile Char.isAlphanum

/-- Whether the body of a tag may begin with the character. -/
def beginsBody (c : Char) : Bool := c.isAlpha || c == '/' || c == '!'

/-- Whether a text that begins as a body does is the body of a tag. -/
def isBody (body : Text) : Bool :=
  !(Tag.mk body).name.isEmpty || body.head? == some '!'

/-- Cuts a text before its first `>`, which is dropped. -/
def cutAtClose? : Text → Option (Text × Text)
  | [] => none
  | c :: s =>
    if c = '>' then some ([], s)
    else (cutAtClose? s).map fun (a, b) => (c :: a, b)

/-- Reads the tag whose `<` was just passed. -/
def readAfter? (s : Text) : Option (Tag × Text) :=
  if s.head?.any beginsBody then
    match cutAtClose? s with
    | some (body, rest) => if isBody body then some (⟨body⟩, rest) else none
    | none => none
  else none

/-- Reads the tag at the front of a text. -/
def read? : Text → Option (Tag × Text)
  | '<' :: s => readAfter? s
  | _ => none

/-- Whether the tag opens an element of the name. -/
def opens (t : Tag) (name : Text) : Bool := !t.isClosing && t.name == name

/-- Whether the tag closes an element of the name. -/
def closes (t : Tag) (name : Text) : Bool := t.isClosing && t.name == name

/-- The words of a text, which blanks separate. The word at the front may be
empty. -/
def wordsFrom : Text → List Text
  | [] => [[]]
  | c :: s =>
    if isBlank c then [] :: wordsFrom s
    else
      match wordsFrom s with
      | [] => [[c]]
      | w :: ws => (c :: w) :: ws

/-- The classes of the tag: the words in the quotes after the first `class=`. -/
def classes (t : Tag) : List Text :=
  match cutAt? "class=".toList t.attributes with
  | some (_, quote :: value) =>
    if quote = '"' ∨ quote = '\'' then
      if value.contains quote then
        (wordsFrom (value.takeWhile (· != quote))).filter (!·.isEmpty)
      else []
    else []
  | _ => []

theorem cutAtClose?_join {s body rest : Text}
    (h : cutAtClose? s = some (body, rest)) :
    body ++ '>' :: rest = s := by
  induction s generalizing body with
  | nil => simp [cutAtClose?] at h
  | cons c s ih =>
    rw [cutAtClose?] at h
    split at h
    · next hc =>
      simp only [Option.some.injEq, Prod.mk.injEq] at h
      obtain ⟨rfl, rfl⟩ := h
      rw [hc]
      rfl
    · obtain ⟨⟨a, b⟩, hab, he⟩ := Option.map_eq_some_iff.1 h
      simp only [Prod.mk.injEq] at he
      obtain ⟨rfl, rfl⟩ := he
      rw [List.cons_append, ih hab]

/-- A tag that was read, followed by what was left, is the text. -/
theorem text_append_of_readAfter? {s rest : Text} {t : Tag}
    (h : readAfter? s = some (t, rest)) :
    t.text ++ rest = '<' :: s := by
  rw [readAfter?] at h
  split at h
  · split at h
    · next hcut =>
      split at h
      · simp only [Option.some.injEq, Prod.mk.injEq] at h
        obtain ⟨rfl, rfl⟩ := h
        rw [← cutAtClose?_join hcut]
        simp [text]
      · simp at h
    · simp at h
  · simp at h

end Tag
end Worksheet.Markup

import Worksheet.Markup.Tag
import Worksheet.Markup.Entity

/-!
# Tokens of a markup

A markup is a sequence of tags, entities and single characters. Each token means
a text: some tags mean a line feed or the sign of a raised or lowered script, an
entity means its character, the minus sign of mathematics means the plain one,
and any other character means itself. The tokens of a markup make up the markup.
-/

namespace Worksheet.Markup

open Text

/-- The smallest pieces of a markup. -/
inductive Token where
  | tag (t : Tag)
  | entity (e : Entity)
  | char (c : Char)
  deriving DecidableEq

/-- The token as written. -/
def Token.text : Token → Text
  | tag t => t.text
  | entity e => e.text
  | char c => [c]

/-- The token at the front of a text, and what is left. -/
def Token.next (c : Char) (s : Text) : Token × Text :=
  if c = '<' then
    match Tag.readAfter? s with
    | some (t, rest) => (.tag t, rest)
    | none => (.char c, s)
  else if c = '&' then
    match Entity.readAfter? s with
    | some (e, rest) => (.entity e, rest)
    | none => (.char c, s)
  else (.char c, s)

theorem Token.text_append_next (c : Char) (s : Text) :
    (next c s).1.text ++ (next c s).2 = c :: s := by
  rw [next]
  split
  · next hc =>
    split
    · next h => rw [hc]; exact Tag.text_append_of_readAfter? h
    · rfl
  · split
    · next hc =>
      split
      · next h => rw [hc]; exact Entity.text_append_of_readAfter? h
      · rfl
    · rfl

theorem Token.text_ne_nil (t : Token) : t.text ≠ [] := by
  cases t <;> simp [text, Tag.text, Entity.text]

theorem Token.length_next_lt (c : Char) (s : Text) :
    (next c s).2.length < (c :: s).length := by
  have h := congrArg List.length (text_append_next c s)
  have := List.length_pos_iff.2 (text_ne_nil (next c s).1)
  rw [List.length_append] at h
  omega

/-- The tokens of a markup. -/
def tokens : Text → List Token
  | [] => []
  | c :: s => (Token.next c s).1 :: tokens (Token.next c s).2
termination_by s => s.length
decreasing_by exact Token.length_next_lt c s

/-- Tokens as written. -/
def unlex (ts : List Token) : Text := ts.flatMap Token.text

/-- The tokens of a markup make up the markup. -/
theorem unlex_tokens (s : Text) : unlex (tokens s) = s := by
  fun_induction tokens s with
  | case1 => rfl
  | case2 c s ih =>
    rw [unlex, List.flatMap_cons]
    rw [unlex] at ih
    rw [ih, Token.text_append_next]

/-- The elements that end a line. -/
def blockNames : List Text :=
  ["p", "div", "h1", "h2", "h3", "h4", "h5", "h6", "li", "tr", "table", "pre",
   "ul", "ol", "blockquote"].map String.toList

/-- Whether a tag ends a line: a break, or the end of a block. -/
def Tag.endsLine (t : Tag) : Bool :=
  t.name == "br".toList || (t.isClosing && blockNames.contains t.name)

/-- The text that a tag means. -/
def Tag.meaning (t : Tag) : Text :=
  if t.endsLine then ['\n']
  else if t.opens "sup".toList then ['^']
  else if t.opens "sub".toList then ['_']
  else []

/-- The text that a token means. -/
def Token.meaning : Token → Text
  | tag t => t.meaning
  | entity e => [e.character]
  | char c => [if c = '−' then '-' else c]

/-- The text that a markup means. -/
def meaning (markup : Text) : Text := (tokens markup).flatMap Token.meaning

end Worksheet.Markup

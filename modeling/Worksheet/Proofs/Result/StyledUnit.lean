import Worksheet.Proofs.Markup.Printing
import Worksheet.Proofs.Markup.Reading
import Worksheet.Proofs.Result.Scalar

/-!
# A unit in italics and in plain text

A rendered number is followed by its unit in italics, which may be raised to a
power. The unit can be read off the tags, or off the text that the markup means,
behind the number; both readings give the same unit, and the number is read
back. The minus sign of the power may be written in three ways and the blank in
front of the unit in two, of which the text keeps one each.
-/

namespace Worksheet

open Text Decimal Markup

/-! ## What is written -/

/-- How a minus sign is written. -/
inductive Minus where
  | hyphen
  | sign
  | entity

def Minus.text : Minus → Text
  | hyphen => ['-']
  | sign => ['−']
  | entity => "&minus;".toList

/-- How the blank between number and unit is written. -/
inductive Separator where
  | space
  | entity

def Separator.text : Separator → Text
  | space => [' ']
  | entity => "&nbsp;".toList

/-- The digits of an integer, after a minus sign as it is written when it is
negative. -/
def Minus.integer (m : Minus) : Int → Text
  | .ofNat n => digits n
  | .negSucc n => m.text ++ digits (n + 1)

/-- A power as a raised script. -/
def raisedScript (m : Minus) (k : Int) : Text :=
  "<sup>".toList ++ (m.integer k ++ "</sup>".toList)

/-- The markup of a number with its unit in italics, which may be raised to a
power. -/
def styledQuantity (x : Float) (gap : Separator) (unit : Text) (m : Minus)
    (power : Option Int) : Text :=
  plain x ++
    (gap.text ++ ("<i>".toList ++
      (unit ++ ("</i>".toList ++ power.elim [] (raisedScript m)))))

/-- The unit with its power. -/
def raisedUnit (unit : Text) (power : Option Int) : Text :=
  unit ++ power.elim [] fun k => '^' :: signedDigits k

/-! ## Words -/

/-- A text that is shown as it stands and has no blanks. -/
def IsWord (s : Text) : Prop :=
  ∀ c ∈ s, isPlain c = true ∧ isBlank c = false ∧ c ≠ '−'

namespace IsWord

variable {s t : Text}

theorem singleton {c : Char}
    (h : isPlain c = true ∧ isBlank c = false ∧ c ≠ '−') : IsWord [c] := by
  intro d hd
  obtain rfl := List.mem_singleton.1 hd
  exact h

theorem append (hs : IsWord s) (ht : IsWord t) : IsWord (s ++ t) := by
  intro c hc
  rcases List.mem_append.1 hc with hc | hc
  · exact hs c hc
  · exact ht c hc

theorem plain (h : IsWord s) : PlainLine s := fun c hc => (h c hc).1

theorem shown (h : IsWord s) : ∀ c ∈ s, isBlank c = false :=
  fun c hc => (h c hc).2.1

theorem normalize_eq (h : IsWord s) : normalize s = s := by
  have none : Text.normalize [] = [] := rfl
  have whole := normalize_word h.plain h.shown []
  rwa [List.append_nil, none, List.append_nil] at whole

/-- What stands for a word shows the word as a unit. -/
theorem unitText_eq (h : IsWord s) {markup : Text}
    (means : meaning markup = s) : unitText markup = s := by
  rw [unitText, means, h.normalize_eq, List.filter_eq_self]
  intro c hc
  rw [h.shown c hc, Bool.not_false]

theorem untagged (h : IsWord s) : Untagged s := untagged_of_plain h.plain

/-- A word is spelled by its characters. -/
theorem spells (h : IsWord s) : Spells (s.map .char) s s := by
  have each := Spells.map (s := s) (f := Token.char) (g := fun c => [c])
    (k := fun c => [c]) fun c hc => by
    obtain ⟨tag, entity⟩ := h.untagged c hc
    have alone := Spells.singleton (Token.standsAlone_char tag entity)
    have means : (Token.char c).meaning = [c] :=
      congrArg (fun d => [d]) (if_neg (h c hc).2.2)
    rwa [means] at alone
  rwa [List.flatMap_singleton'] at each

end IsWord

theorem isWord_of_letters {unit : Text}
    (letters : ∀ c ∈ unit, isAlphabetic c = true) : IsWord unit := by
  intro c hc
  have letter := letters c hc
  have shown : isBlank c = false := by
    rw [← Bool.not_eq_true]
    intro blank
    have word := isAlphanumeric_of_isAlphabetic letter
    rw [not_isAlphanumeric_of_isBlank blank] at word
    cases word
  have other (d : Char) (hd : isAlphabetic d = false) : c ≠ d := by
    rintro rfl
    rw [letter] at hd
    cases hd
  refine ⟨?_, shown, other '−' (by decide +kernel)⟩
  simp only [isPlain, Bool.and_eq_true, bne_iff_ne, Bool.not_eq_true']
  exact ⟨⟨⟨other '<' (by decide), other '&' (by decide)⟩,
      other '＝' (by decide +kernel)⟩,
    not_isLineBreak_of_not_isBlank shown⟩

theorem shown_of_isDigit {c : Char} (digit : c.isDigit = true) :
    isPlain c = true ∧ isBlank c = false ∧ c ≠ '−' := by
  refine ⟨eq_of_isDigit (by decide) digit, eq_of_isDigit (by decide) digit, ?_⟩
  rintro rfl
  exact absurd digit (by decide)

theorem isWord_digits (n : Nat) : IsWord (digits n) :=
  fun c hc => shown_of_isDigit (isDigit_of_mem_digits c hc)

theorem isWord_signedDigits (k : Int) : IsWord (signedDigits k) := by
  cases k with
  | ofNat n => exact isWord_digits n
  | negSucc n =>
    exact (IsWord.singleton (by decide)).append (isWord_digits (n + 1))

theorem isWord_plain {x : Float} (finite : x.isFinite = true) :
    IsWord (plain x) := by
  obtain ⟨n, written, -, htext, -⟩ := exists_plain finite
  rw [← htext]
  intro c hc
  rcases written.mem_text hc with digit | mark
  · exact shown_of_isDigit digit
  · refine ⟨eq_of_mem_marks (by decide) mark, eq_of_mem_marks (by decide) mark,
      ?_⟩
    rintro rfl
    exact absurd mark (by decide)

theorem isWord_raisedUnit {unit : Text}
    (letters : ∀ c ∈ unit, isAlphabetic c = true) (power : Option Int) :
    IsWord (raisedUnit unit power) := by
  refine (isWord_of_letters letters).append ?_
  cases power with
  | none => simp [IsWord]
  | some k =>
    exact (IsWord.singleton (by decide)).append (isWord_signedDigits k)

/-! ## Tokens -/

def Minus.token : Minus → Token
  | hyphen => .char '-'
  | sign => .char '−'
  | entity => .entity ⟨"minus".toList, '-'⟩

/-- Every minus sign means the plain one. -/
theorem Minus.spells (m : Minus) : Spells [m.token] m.text ['-'] := by
  cases m with
  | hyphen => exact .singleton (Token.standsAlone_char (by decide) (by decide))
  | sign => exact .singleton (Token.standsAlone_char (by decide) (by decide))
  | entity =>
    have sound : Entity.Sound ⟨"minus".toList, '-'⟩ :=
      ⟨by decide, by decide, by decide⟩
    exact .singleton fun _ => sound

def Separator.token : Separator → Token
  | space => .char ' '
  | entity => .entity ⟨"nbsp".toList, '\u00a0'⟩

/-- The blank that a separator means. -/
def Separator.blank : Separator → Char
  | space => ' '
  | entity => '\u00a0'

theorem Separator.spells (gap : Separator) :
    Spells [gap.token] gap.text [gap.blank] := by
  cases gap with
  | space => exact .singleton (Token.standsAlone_char (by decide) (by decide))
  | entity =>
    have sound : Entity.Sound ⟨"nbsp".toList, '\u00a0'⟩ :=
      ⟨by decide, by decide, by decide⟩
    exact .singleton fun _ => sound

/-- A tag of a name without attributes. -/
def bareTag (closing : Bool) (name : String) : Tag :=
  .ofName closing name.toList []

theorem spells_bareTag {closing : Bool} {name : String}
    (named : (bareTag closing name).Named) :
    Spells [.tag (bareTag closing name)] (bareTag closing name).text
      (bareTag closing name).meaning :=
  .singleton fun _ => named.sound

/-- The tokens of an integer. -/
def Minus.tokens (m : Minus) : Int → List Token
  | .ofNat n => (digits n).map .char
  | .negSucc n => m.token :: (digits (n + 1)).map .char

theorem Minus.spells_integer (m : Minus) (k : Int) :
    Spells (m.tokens k) (m.integer k) (signedDigits k) := by
  cases k with
  | ofNat n => exact (isWord_digits n).spells
  | negSucc n => exact m.spells.append (isWord_digits (n + 1)).spells

/-- The tokens of a power. -/
def raisedTokens (m : Minus) (k : Int) : List Token :=
  .tag (bareTag false "sup") :: (m.tokens k ++ [.tag (bareTag true "sup")])

theorem spells_raisedScript (m : Minus) (k : Int) :
    Spells (raisedTokens m k) (raisedScript m k) ('^' :: signedDigits k) := by
  have opening : Spells [.tag (bareTag false "sup")] "<sup>".toList ['^'] :=
    spells_bareTag (by decide)
  have closing : Spells [.tag (bareTag true "sup")] "</sup>".toList [] :=
    spells_bareTag (by decide)
  have whole := opening.append ((m.spells_integer k).append closing)
  rwa [List.append_nil] at whole

/-- The tokens of a number with its unit in italics. -/
def styledTokens (x : Float) (gap : Separator) (unit : Text) (m : Minus)
    (power : Option Int) : List Token :=
  ((plain x).map .char ++ [gap.token]) ++ Token.tag (bareTag false "i") ::
    (unit.map .char ++ Token.tag (bareTag true "i") ::
      power.elim [] (raisedTokens m))

section

variable {x : Float} (finite : x.isFinite = true) {unit : Text}
  (letters : ∀ c ∈ unit, isAlphabetic c = true) (gap : Separator) (m : Minus)
  (power : Option Int)

theorem spells_power :
    Spells (power.elim [] (raisedTokens m)) (power.elim [] (raisedScript m))
      (power.elim [] fun k => '^' :: signedDigits k) := by
  cases power with
  | none => exact .nil
  | some k => exact spells_raisedScript m k

include finite letters

/-- The markup means the number and the unit with a blank between them. -/
theorem spells_styledQuantity :
    Spells (styledTokens x gap unit m power) (styledQuantity x gap unit m power)
      (plain x ++ gap.blank :: raisedUnit unit power) := by
  have opening : Spells [.tag (bareTag false "i")] "<i>".toList [] :=
    spells_bareTag (by decide)
  have closing : Spells [.tag (bareTag true "i")] "</i>".toList [] :=
    spells_bareTag (by decide)
  have front := (isWord_plain finite).spells.append gap.spells
  have back := (isWord_of_letters letters).spells.append
    (closing.append (spells_power m power))
  have whole := front.append (opening.append back)
  rw [List.append_assoc (plain x), List.append_assoc (plain x)] at whole
  exact whole

end

/-! ## Read from the tags -/

theorem not_endsPower_char (c : Char) : (Token.char c).endsPower = false := by
  rw [← Bool.not_eq_true, Token.endsPower_iff]
  rintro ⟨s, written⟩
  have length := congrArg List.length written
  simp [Token.text] at length

/-- An integer holds neither tags nor an end of a power. -/
theorem Minus.of_mem_tokens {m : Minus} {k : Int} {t : Token}
    (ht : t ∈ m.tokens k) :
    (∀ u, t ≠ .tag u) ∧ t.endsPower = false := by
  have char {ds : Text} (ht : t ∈ ds.map Token.char) :
      (∀ u, t ≠ .tag u) ∧ t.endsPower = false := by
    obtain ⟨c, -, rfl⟩ := List.mem_map.1 ht
    exact ⟨by simp, not_endsPower_char c⟩
  cases k with
  | ofNat n => exact char ht
  | negSucc n =>
    rcases List.mem_cons.1 ht with rfl | ht
    · cases m with
      | hyphen => exact ⟨by simp [token], not_endsPower_char '-'⟩
      | sign => exact ⟨by simp [token], not_endsPower_char '−'⟩
      | entity => exact ⟨by simp [token], by decide⟩
    · exact char ht

/-- A raised integer is read as a power, with the plain minus sign. -/
theorem power_raisedScript (m : Minus) (k : Int) :
    power (raisedScript m k) = '^' :: signedDigits k := by
  have spelled := m.spells_integer k
  have reads : ReadsAs (m.integer k ++ "</sup>".toList)
      (m.tokens k ++ [.tag (bareTag true "sup")]) := by
    have closing : Spells [.tag (bareTag true "sup")] "</sup>".toList [] :=
      spells_bareTag (by decide)
    have both := spelled.append closing
    have lexed := (lexed_of_standsAlone both.alone []).readsAs (by simp)
    rwa [both.text, List.append_nil] at lexed
  have cut :=
    reads.cutAt?_first (s := []) (fun u hu => (Minus.of_mem_tokens hu).2) rfl
  have sound : (bareTag false "sup").Sound := Tag.Named.sound (by decide)
  have exponent : exponent? (raisedScript m k) = some (m.integer k) := by
    show exponent? ((bareTag false "sup").text ++
      (m.integer k ++ "</sup>".toList)) = some (m.integer k)
    rw [exponent?_tag sound, if_pos (by decide), cut, List.append_nil,
      spelled.text]
  have shown : unitText (m.integer k) = signedDigits k :=
    (isWord_signedDigits k).unitText_eq spelled.meaning_eq
  have ne : signedDigits k ≠ [] := by
    cases k with
    | ofNat n => exact digits_ne_nil n
    | negSucc n => exact List.cons_ne_nil _ _
  rw [power_eq, exponent]
  show (if (unitText (m.integer k)).isEmpty then [] else '^' ::
    unitText (m.integer k)) = _
  rw [shown, if_neg (by simpa using ne)]

/-- The unit in italics is read with its power. -/
theorem italicUnit?_styledQuantity {x : Float} (finite : x.isFinite = true)
    {unit : Text} (ne : unit ≠ []) (letters : ∀ c ∈ unit, isAlphabetic c = true)
    (gap : Separator) (m : Minus) (power : Option Int) :
    italicUnit? (styledQuantity x gap unit m power) =
      some (raisedUnit unit power) := by
  have whole := (spells_styledQuantity finite letters gap m power).tokens_eq
  have untagged : ∀ t, Token.tag t ∉ unit.map .char := by simp
  have last :
      ∀ t, Token.tag t ∈ unit.map .char ++ power.elim [] (raisedTokens m) →
      t.opens ['i'] = false := by
    intro t ht
    have later := (List.mem_append.1 ht).resolve_left (untagged t)
    cases power with
    | none => cases later
    | some k =>
      rw [Option.elim_some, raisedTokens, List.mem_cons, List.mem_append,
        List.mem_singleton] at later
      rcases later with eq | inside | eq
      · rw [Token.tag.inj eq]
        decide
      · exact absurd rfl ((Minus.of_mem_tokens inside).1 t)
      · rw [Token.tag.inj eq]
        decide
  have word := isWord_of_letters letters
  have inside : unitText (unlex (unit.map .char)) = unit := by
    rw [word.spells.text]
    exact word.unitText_eq word.spells.meaning_eq
  have reading := italicReading?_of_last whole (by decide) (by decide)
    (fun t ht => absurd ht (untagged t)) last
  rw [inside, if_neg (by simpa using ne),
    (spells_power m power).text] at reading
  rw [italicUnit?_eq, reading, Option.map_some, raisedUnit]
  cases power with
  | none => rfl
  | some k =>
    show some (unit ++ Markup.power (raisedScript m k)) =
      some (unit ++ '^' :: signedDigits k)
    rw [power_raisedScript]

/-! ## Read from the text -/

theorem isNumberChar_of_mem_signedDigits {k : Int} {c : Char}
    (hc : c ∈ signedDigits k) :
    c.isDigit = true ∨ c = '-' := by
  cases k with
  | ofNat n => exact .inl (isDigit_of_mem_digits c hc)
  | negSucc n =>
    rcases List.mem_cons.1 hc with rfl | hc
    · exact .inr rfl
    · exact .inl (isDigit_of_mem_digits c hc)

/-- What holds between neighbours among letters, digits and the signs of a power
holds along a unit. -/
theorem isChain_raisedUnit {R : Char → Char → Prop} {unit : Text}
    (letters : ∀ c ∈ unit, isAlphabetic c = true)
    (word : ∀ a b, isAlphabetic a = true →
      isAlphabetic b = true ∨ b = '^' → R a b)
    (caret : ∀ b, b.isDigit = true ∨ b = '-' → R '^' b)
    (number : ∀ a b, a.isDigit = true ∨ a = '-' → b.isDigit = true → R a b)
    (power : Option Int) :
    (raisedUnit unit power).IsChain R := by
  have run {s : Text} (hs : ∀ a ∈ s, ∀ b ∈ s, R a b) : s.IsChain R :=
    (List.pairwise_of_forall_mem_list hs).isChain
  have counted (n : Nat) : (digits n).IsChain R := by
    apply run
    intro a ha b hb
    exact number a b (.inl (isDigit_of_mem_digits a ha))
      (isDigit_of_mem_digits b hb)
  have signed (k : Int) : (signedDigits k).IsChain R := by
    cases k with
    | ofNat n => exact counted n
    | negSucc n =>
      refine List.isChain_cons.2 ⟨?_, counted (n + 1)⟩
      intro b hb
      exact number '-' b (.inr rfl)
        (isDigit_of_mem_digits b (List.mem_of_mem_head? hb))
  have front : unit.IsChain R := by
    apply run
    intro a ha b hb
    exact word a b (letters a ha) (.inl (letters b hb))
  refine List.isChain_append.2 ⟨front, ?_, ?_⟩
  · cases power with
    | none => exact .nil
    | some k =>
      refine List.isChain_cons.2 ⟨?_, signed k⟩
      intro b hb
      exact caret b
        (isNumberChar_of_mem_signedDigits (List.mem_of_mem_head? hb))
  · intro a ha b hb
    cases power with
    | none => cases hb
    | some k =>
      exact word a b (letters a (List.mem_of_mem_getLast? ha))
        (.inr (Option.some.inj hb).symm)

/-- A unit ends with letters, or with the digits of its power. -/
theorem exists_end_raisedUnit {unit : Text} (ne : unit ≠ [])
    (letters : ∀ c ∈ unit, isAlphabetic c = true) (power : Option Int) :
    ∃ front back, raisedUnit unit power = front ++ back ∧ back ≠ [] ∧
      ∀ c ∈ back, isAlphanumeric c = true := by
  have digit (n : Nat) : ∀ c ∈ digits n, isAlphanumeric c = true := by
    intro c hc
    exact eq_of_isDigit (by decide) (isDigit_of_mem_digits c hc)
  match power with
  | none =>
    refine ⟨[], unit, List.append_nil unit, ne, ?_⟩
    intro c hc
    exact isAlphanumeric_of_isAlphabetic (letters c hc)
  | some (.ofNat n) =>
    exact ⟨unit ++ ['^'], digits n, by simp [raisedUnit, signedDigits],
      digits_ne_nil n, digit n⟩
  | some (.negSucc n) =>
    exact ⟨unit ++ ['^', '-'], digits (n + 1),
      by simp [raisedUnit, signedDigits], digits_ne_nil (n + 1), digit (n + 1)⟩

/-- A word of letters, raised to a power or not, is a unit. -/
theorem unitToken_raisedUnit (v : Vocabulary) {unit : Text} (ne : unit ≠ [])
    (letters : ∀ c ∈ unit, isAlphabetic c = true) (power : Option Int) :
    v.UnitToken (raisedUnit unit power) := by
  have word {c : Char} (hc : isAlphanumeric c = true) :
      v.isUnitChar c = true := by
    rw [Vocabulary.isUnitChar, hc, Bool.true_or, Bool.true_or]
  have letter {c : Char} (hc : isAlphabetic c = true) : v.isUnitChar c = true :=
    word (isAlphanumeric_of_isAlphabetic hc)
  have digit {c : Char} (hc : c.isDigit = true) : v.isUnitChar c = true :=
    word (eq_of_isDigit (by decide) hc)
  have caret : v.isUnitChar '^' = true := by
    have symbol : (isAlphanumeric '^' || Vocabulary.unitSymbols.contains '^') =
        true := by decide
    rw [Vocabulary.isUnitChar, symbol, Bool.true_or]
  refine ⟨?_, ?_, ?_⟩
  · obtain ⟨c, rest, rfl⟩ := List.exists_cons_of_ne_nil ne
    show v.isUnitStart c = true
    rw [Vocabulary.isUnitStart, letters c List.mem_cons_self, Bool.true_or,
      Bool.true_or]
  · apply isChain_raisedUnit letters
    · rintro a b - (hb | rfl)
      · exact .inl (letter hb)
      · exact .inl caret
    · rintro b (hb | rfl)
      · exact .inl (digit hb)
      · exact .inr ⟨rfl, rfl⟩
    · rintro a b - hb
      exact .inl (digit hb)
  · obtain ⟨front, back, split, ne', last⟩ :=
      exists_end_raisedUnit ne letters power
    rw [split, List.getLast?_append_of_ne_nil front ne',
      List.getLast?_eq_some_getLast ne', Option.any_some, ← Bool.not_eq_true,
      List.contains_iff_mem]
    intro joiner
    have apart : Vocabulary.unitJoiners.all (!isAlphanumeric ·) = true := by
      decide +kernel
    have other := List.all_eq_true.1 apart _ joiner
    rw [last _ (List.getLast_mem ne')] at other
    cases other

/-- No sign of multiplication stands in front of a one in a unit of letters:
behind a letter come letters or the sign of a power. -/
theorem untenfold_raisedUnit {unit : Text}
    (letters : ∀ c ∈ unit, isAlphabetic c = true) (power : Option Int)
    {times : Char} (htimes : isTimes times = true) :
    ¬[times, '1', '0'] <:+: raisedUnit unit power := by
  intro inside
  have chain : (raisedUnit unit power).IsChain fun a b => isTimes a = true →
      b ≠ '1' := by
    apply isChain_raisedUnit letters
    · rintro a b - (hb | rfl) -
      · rintro rfl
        exact absurd hb (by decide)
      · decide
    · intro b _ caret
      exact absurd caret (by decide)
    · rintro a b (ha | rfl) - sign
      · have other : isTimes a = false := eq_of_isDigit (by decide) ha
        rw [other] at sign
        cases sign
      · exact absurd sign (by decide)
  have part := chain.infix inside
  have next := (List.isChain_cons.1 part).1 '1' rfl
  exact next htimes rfl

section

variable {x : Float} (finite : x.isFinite = true) {unit : Text} (ne : unit ≠ [])
  (letters : ∀ c ∈ unit, isAlphabetic c = true) (power : Option Int)

include finite letters

/-- The text of the markup keeps one space in front of the unit. -/
theorem normalize_styledQuantity (gap : Separator) (m : Minus) :
    normalize (meaning (styledQuantity x gap unit m power)) =
      plain x ++ ' ' :: raisedUnit unit power := by
  have word := isWord_raisedUnit letters power
  have plainGap : PlainLine [gap.blank] := by
    cases gap <;> exact List.all_eq_true.1 rfl
  have blankGap : isAllBlank [gap.blank] = true := by
    cases gap <;> decide
  have head := (Trimmed.of_not_isBlank word.shown).head
  have spaced := normalizeFrom_gap plainGap blankGap word.plain head false
  rw [word.normalize_eq] at spaced
  rw [(spells_styledQuantity finite letters gap m power).meaning_eq,
    normalize_word (isWord_plain finite).plain (isWord_plain finite).shown]
  exact congrArg _ spaced

/-- The number in front of the unit is read back. -/
theorem scalar?_raisedUnit :
    scalar? (plain x ++ ' ' :: raisedUnit unit power) =
      some (x, ' ' :: raisedUnit unit power) := by
  have word := isWord_raisedUnit letters power
  have stops :=
    stops_of_head (.inr ⟨' ', raisedUnit unit power, rfl, by decide⟩)
  show scalar? ([] ++ (plain x ++ ' ' :: raisedUnit unit power)) = _
  refine scalar?_plain_of_stops finite rfl stops ?_
  intro front apart
  show ¬HoldsTenfold (front ++ ([' '] ++ raisedUnit unit power))
  refine not_holdsTenfold_of_gap apart rfl word.shown ?_
  intro times htimes
  exact untenfold_raisedUnit letters power htimes

include ne

/-- A number with its unit in italics is read alike from its tags and from its
text: the unit with its power in both, and the number from the text. -/
theorem styled_and_textual_units_agree (v : Vocabulary) (gap : Separator)
    (m : Minus) :
    let markup := styledQuantity x gap unit m power
    let text := normalize (meaning markup)
    italicUnit? markup = some (raisedUnit unit power) ∧
      v.unitAfterScalar? text = some (raisedUnit unit power) ∧
      scalar? text = some (x, ' ' :: raisedUnit unit power) := by
  intro markup text
  have shown : text = plain x ++ ' ' :: raisedUnit unit power :=
    normalize_styledQuantity finite letters power gap m
  have read := scalar?_raisedUnit finite letters power
  have token := unitToken_raisedUnit v ne letters power
  refine ⟨italicUnit?_styledQuantity finite ne letters gap m power, ?_, ?_⟩
  · have start :
        trimStart (' ' :: raisedUnit unit power) = raisedUnit unit power :=
      trimStart_append (p := [' ']) rfl token.trimmed.head
    have whole := Vocabulary.unitToken_eq_self_iff.2 (.inr token)
    have some' : raisedUnit unit power ≠ [] :=
      List.append_ne_nil_of_left_ne_nil ne _
    rw [shown, Vocabulary.unitAfterScalar?, read]
    simp only [start, whole, List.isEmpty_iff, some', if_false]
  · rw [shown, read]

end

/-- A unit whose letters are a sign of multiplication and the mark of an
exponent, with ten in its power. -/
theorem styled_and_textual_units_agree_sample :
    let markup := styledQuantity 1.5 .entity "xe".toList .sign (some (-10))
    italicUnit? markup = some "xe^-10".toList ∧
      Vocabulary.builtIn.unitAfterScalar? (normalize (meaning markup)) =
        some "xe^-10".toList := by
  intro markup
  have finite : (1.5 : Float).isFinite = true := by decide +kernel
  have ne : "xe".toList ≠ [] := by decide
  have letters : ∀ c ∈ "xe".toList, isAlphabetic c = true :=
    List.all_eq_true.1 rfl
  have unit : raisedUnit "xe".toList (some (-10)) = "xe^-10".toList := by
    decide +kernel
  have agree := styled_and_textual_units_agree finite ne letters
    (some (-10)) .builtIn .entity .sign
  rw [unit] at agree
  exact ⟨agree.1, agree.2.1⟩

end Worksheet

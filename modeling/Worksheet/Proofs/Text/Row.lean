import Mathlib.Data.List.Basic
import Worksheet.Text.Row

/-!
# Rows read back

The rows of a text have contents that do not end them early, and only the last
one can lack an ending. Rows of this kind are found again in the text that they
make up.
-/

namespace Worksheet.Text

/-- A content that stands before an ending without ending its row earlier. -/
structure Row.Sound (r : Row) : Prop where
  feed : '\n' ∉ r.content
  last : r.ending = .feed → r.content.getLast? ≠ some '\r'

/-- Rows that a text can have. -/
inductive AreRows : List Row → Prop where
  | nil : AreRows []
  | last {r : Row} (sound : r.Sound) (ending : r.ending = .open)
    (ne : r.content ≠ []) : AreRows [r]
  | cons {r : Row} {rs : List Row} (sound : r.Sound) (ending : r.ending ≠ .open)
    (rest : AreRows rs) : AreRows (r :: rs)

theorem rows_cons {c : Char} {s : Text} (feed : c ≠ '\n')
    (returnFeed : c = '\r' → s.head? ≠ some '\n') :
    rows (c :: s) = pushFront c (rows s) := by
  rw [rows.eq_def]
  split
  · next heq => cases heq
  · next heq =>
    obtain ⟨rfl, rfl⟩ := List.cons.inj heq
    exact absurd rfl (returnFeed rfl)
  · next heq =>
    obtain ⟨rfl, -⟩ := List.cons.inj heq
    exact absurd rfl feed
  · next heq =>
    obtain ⟨rfl, rfl⟩ := List.cons.inj heq
    rfl

/-- Only a line feed gives an empty row with a line feed. -/
theorem head?_of_rows {s : Text} {rs : List Row}
    (h : rows s = ⟨[], .feed⟩ :: rs) :
    s.head? = some '\n' := by
  rw [rows.eq_def] at h
  split at h
  · cases h
  · cases h
  · rfl
  · next c s _ _ =>
    cases hs : rows s with
    | nil => simp [hs, pushFront] at h
    | cons r rs => simp [hs, pushFront] at h

theorem AreRows.pushFront {c : Char} {rs : List Row} (h : AreRows rs)
    (feed : c ≠ '\n')
    (returnFeed : c = '\r' → ∀ rest, rs ≠ ⟨[], .feed⟩ :: rest) :
    AreRows (pushFront c rs) := by
  -- A carriage return in front ends no content, unless that content was empty
  -- before a line feed.
  have sound {r : Row} {rest : List Row} (hr : rs = r :: rest)
      (sound : r.Sound) :
      Row.Sound ⟨c :: r.content, r.ending⟩ := by
    refine ⟨by simp [Ne.symm feed, sound.feed], ?_⟩
    intro hending
    obtain ⟨content, ending⟩ := r
    cases content with
    | nil =>
      cases hending
      rintro hlast
      obtain rfl : c = '\r' := Option.some.inj hlast
      exact returnFeed rfl rest hr
    | cons d content => simpa using sound.last hending
  cases h with
  | nil => exact .last ⟨by simp [Ne.symm feed], by simp⟩ rfl (by simp)
  | last hsound ending ne => exact .last (sound rfl hsound) ending (by simp)
  | cons hsound ending rest => exact .cons (sound rfl hsound) ending rest

/-- The rows of a text are rows that a text can have. -/
theorem areRows_rows (s : Text) : AreRows (rows s) := by
  fun_induction rows s with
  | case1 => exact .nil
  | case2 s ih => exact .cons ⟨by simp, by simp⟩ (by simp) ih
  | case3 s ih => exact .cons ⟨by simp, by simp⟩ (by simp) ih
  | case4 c s noReturn noFeed ih =>
    apply ih.pushFront noFeed
    rintro rfl rest hrows
    obtain ⟨t, ht⟩ := List.head?_eq_some_iff.1 (head?_of_rows hrows)
    exact noReturn t rfl ht

theorem rows_append {content : Text} {ending : Ending}
    (sound : Row.Sound ⟨content, ending⟩) (closed : ending ≠ .open) (s : Text) :
    rows (content ++ (ending.text ++ s)) = ⟨content, ending⟩ :: rows s := by
  induction content with
  | nil =>
    cases ending with
    | feed => rfl
    | returnFeed => rfl
    | «open» => exact absurd rfl closed
  | cons c content ih =>
    obtain ⟨feed, last⟩ := sound
    simp only [List.mem_cons, not_or] at feed
    have rest : Row.Sound ⟨content, ending⟩ := by
      refine ⟨feed.2, ?_⟩
      intro hending hlast
      apply last hending
      rw [List.getLast?_cons, hlast]
      rfl
    rw [List.cons_append, rows_cons (Ne.symm feed.1) ?_, ih rest]
    · rfl
    -- The carriage return would have to stand right before a line feed.
    rintro rfl
    cases content with
    | nil =>
      cases ending with
      | feed => exact absurd rfl (last rfl)
      | returnFeed => simp [Ending.text]
      | «open» => exact absurd rfl closed
    | cons d content =>
      rintro hd
      obtain rfl : d = '\n' := Option.some.inj hd
      exact feed.2 List.mem_cons_self

theorem rows_of_open {content : Text} (feed : '\n' ∉ content)
    (ne : content ≠ []) :
    rows content = [⟨content, .open⟩] := by
  induction content with
  | nil => exact absurd rfl ne
  | cons c content ih =>
    simp only [List.mem_cons, not_or] at feed
    rw [rows_cons (Ne.symm feed.1) ?_]
    · cases content with
      | nil => rfl
      | cons d content =>
        rw [ih feed.2 (by simp)]
        rfl
    · rintro - hhead
      exact feed.2 (List.mem_of_mem_head? hhead)

/-- Rows that a text can have are the rows of their text. -/
theorem rows_flatMap_text {rs : List Row} (h : AreRows rs) :
    rows (rs.flatMap Row.text) = rs := by
  induction h with
  | nil => rfl
  | @last r sound ending ne =>
    obtain ⟨content, e⟩ := r
    cases ending
    simpa [Row.text, Ending.text] using rows_of_open sound.feed ne
  | @cons r rs sound ending rest ih =>
    rw [List.flatMap_cons, Row.text, List.append_assoc,
      rows_append sound ending, ih]

theorem AreRows.sound {rs : List Row} (h : AreRows rs) : ∀ r ∈ rs, r.Sound := by
  induction h with
  | nil => simp
  | last sound _ _ => simpa using sound
  | cons sound _ _ ih => simpa using ⟨sound, ih⟩

/-- A part of a content can be replaced by characters that end no row. -/
theorem Row.Sound.replace {front old new back : Text} {ending : Ending}
    (h : Row.Sound ⟨front ++ (old ++ back), ending⟩) (ne : new ≠ [])
    (feed : '\n' ∉ new) (last : '\r' ∉ new) :
    Row.Sound ⟨front ++ (new ++ back), ending⟩ := by
  constructor
  · have old := h.feed
    simp only [List.mem_append, not_or] at old ⊢
    exact ⟨old.1, feed, old.2.2⟩
  · intro hending
    have old := h.last hending
    cases back with
    | nil =>
      rw [List.append_nil, List.getLast?_append_of_ne_nil _ ne]
      intro h
      exact last (List.mem_of_mem_getLast? h)
    | cons c back =>
      simp only [← List.append_assoc] at old ⊢
      rw [List.getLast?_append_of_ne_nil _ (by simp)] at old ⊢
      exact old

/-- Another content keeps rows apart when it does not end its row early. -/
theorem AreRows.replace {before after : List Row} {content content' : Text}
    {ending : Ending} (h : AreRows (before ++ ⟨content, ending⟩ :: after))
    (sound : Row.Sound ⟨content', ending⟩) (ne : content' ≠ []) :
    AreRows (before ++ ⟨content', ending⟩ :: after) := by
  induction before with
  | nil =>
    cases h with
    | last _ hending _ => exact .last sound hending ne
    | cons _ hending rest => exact .cons sound hending rest
  | cons r before ih =>
    rw [List.cons_append] at h ⊢
    generalize hrows : before ++ ⟨content, ending⟩ :: after = rows at h
    cases h with
    | last => simp at hrows
    | cons hsound hending rest => exact .cons hsound hending (ih (hrows ▸ rest))

end Worksheet.Text

import Mathlib.Data.List.Infix
import Worksheet.Text.Trim

/-!
# Parts of a text

A front of a text is the longest one of a kind when every front of the kind is a
front of it. A part of a text stands between two bytes of the UTF-8 form: both
are places between characters, and the bytes between them are those of the part.
-/

namespace Worksheet.Text

/-! ## Longest fronts -/

/-- A front of a text that is of a kind, and that contains every front of the
kind. -/
structure IsLongest (p : Text → Prop) (s t : Text) : Prop where
  kind : p t
  front : t <+: s
  longest : ∀ u, p u → u <+: s → u <+: t

/-- The size of the longest front of a kind, or zero when no front is of the
kind. -/
def LongestSize (p : Text → Prop) (s : Text) (n : Nat) : Prop :=
  (∃ t, IsLongest p s t ∧ t.size = n) ∨ n = 0 ∧ ∀ t, t <+: s → ¬p t

section

variable {p : Text → Prop} {s t t' : Text}

theorem IsLongest.unique (h : IsLongest p s t) (h' : IsLongest p s t') :
    t = t' :=
  (h'.longest t h.kind h.front).eq_of_length_le
    (h.longest t' h'.kind h'.front).length_le

/-- A reader that takes the longest front of a kind, and nothing when there is
none, takes as much as the longest front has. -/
theorem longestSize_iff (empty : ¬p []) (front : t <+: s) (kind : t = [] ∨ p t)
    (longest : ∀ u, p u → u <+: s → u <+: t) {n : Nat} :
    LongestSize p s n ↔ t.size = n := by
  rcases kind with rfl | kind
  · have none : ∀ u, u <+: s → ¬p u := by
      intro u hu hp
      rw [List.prefix_nil.1 (longest u hp hu)] at hp
      exact empty hp
    constructor
    · rintro (⟨u, hu, -⟩ | ⟨rfl, -⟩)
      · exact absurd hu.kind (none u hu.front)
      · rfl
    · rintro rfl
      exact .inr ⟨rfl, none⟩
  · have taken : IsLongest p s t := ⟨kind, front, longest⟩
    constructor
    · rintro (⟨u, hu, rfl⟩ | ⟨-, none⟩)
      · rw [taken.unique hu]
      · exact absurd kind (none t front)
    · rintro rfl
      exact .inl ⟨t, taken, rfl⟩

end

/-- A front that does not end in what is dropped from the end of the text is not
shortened. -/
theorem isPrefix_dropEndWhile {p : Char → Bool} {s t : Text} (front : t <+: s)
    (last : t.getLast?.any p = false) : t <+: dropEndWhile p s := by
  have join := dropEndWhile_append_takeEndWhile p s
  rcases List.prefix_or_prefix_of_prefix front ⟨_, join⟩ with
    shorter | ⟨more, hmore⟩
  · exact shorter
  · -- What the front has more was dropped, so that its last character would
    -- have been as well.
    rw [← join, ← hmore, List.prefix_append_right_inj] at front
    rw [← hmore] at last ⊢
    have dropped : ∀ c ∈ more, p c = true := by
      intro c hc
      have mem : c ∈ takeEndWhile p s := front.subset hc
      rw [takeEndWhile, List.mem_reverse] at mem
      exact List.all_eq_true.1 List.all_takeWhile c mem
    cases hlast : more.getLast? with
    | none => simp [List.getLast?_eq_none_iff.1 hlast]
    | some c =>
      have ne : more ≠ [] := by rintro rfl; cases hlast
      rw [List.getLast?_append_of_ne_nil _ ne, hlast, Option.any_some,
        dropped c (List.mem_of_mem_getLast? hlast)] at last
      cases last

/-! ## Bytes -/

theorem size_utf8Encode (s : Text) : s.utf8Encode.size = s.size := by
  induction s with
  | nil => rfl
  | cons c s ih =>
    rw [List.utf8Encode_cons, ByteArray.size_append, ih,
      List.utf8Encode_singleton, List.size_toByteArray,
      String.length_utf8EncodeChar, size_cons]

/-- A part of a text stands between two bytes of the UTF-8 form, which are
places between characters. -/
structure StandsAt (s part : Text) (a b : Nat) : Prop where
  start : (String.Pos.Raw.mk a).IsValid (String.ofList s)
  stop : (String.Pos.Raw.mk b).IsValid (String.ofList s)
  bytes : s.utf8Encode.extract a b = part.utf8Encode

/-- The size of a front is a place between characters. -/
theorem isValid_size (front back : Text) :
    (String.Pos.Raw.mk front.size).IsValid (String.ofList (front ++ back)) := by
  refine String.Pos.Raw.isValid_iff_exists_append.2
    ⟨String.ofList front, String.ofList back, String.ofList_append, ?_⟩
  have size := size_utf8Encode front
  rw [← String.toByteArray_ofList] at size
  exact congrArg String.Pos.Raw.mk size.symm

/-- A part stands where the text in front of it ends. -/
theorem standsAt_append (front part back : Text) :
    StandsAt (front ++ (part ++ back)) part front.size
      (front.size + part.size) := by
  refine ⟨isValid_size front (part ++ back), ?_, ?_⟩
  · rw [← size_append, ← List.append_assoc]
    exact isValid_size (front ++ part) back
  · have skip := ByteArray.extract_append_size_add (a := front.utf8Encode)
      (b := part.utf8Encode ++ back.utf8Encode) (i := 0)
      (j := part.utf8Encode.size)
    rw [List.utf8Encode_append, List.utf8Encode_append, ← size_utf8Encode,
      ← size_utf8Encode]
    rw [Nat.add_zero] at skip
    rw [skip]
    exact ByteArray.extract_append_eq_left rfl

end Worksheet.Text

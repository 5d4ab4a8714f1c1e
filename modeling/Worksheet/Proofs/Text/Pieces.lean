import Worksheet.Text.Row

/-!
# Two ways to cut a text into lines

Both ways cut a text behind each line feed. One takes the ending off a piece and
keeps it. The other chomps a line feed off the piece, and then a carriage return
off what is left. The first gives the rows of the text, the second their
contents.
-/

namespace Worksheet.Text

/-- The pieces of a text, each up to and with a line feed; the last one may lack
it. -/
def feedPieces : Text → List Text
  | [] => []
  | c :: s =>
    if c = '\n' then [c] :: feedPieces s
    else
      match feedPieces s with
      | [] => [[c]]
      | piece :: pieces => (c :: piece) :: pieces

/-- What stands before `tail` when the text ends with it. -/
def before? (tail s : Text) : Option Text :=
  (after? tail.reverse s.reverse).map List.reverse

/-- A piece as a row: a carriage return goes to the ending when a line feed
follows it. -/
def splitEnding (piece : Text) : Row :=
  match before? ['\r', '\n'] piece with
  | some content => ⟨content, .returnFeed⟩
  | none =>
    match before? ['\n'] piece with
    | some content => ⟨content, .feed⟩
    | none => ⟨piece, .open⟩

/-- A piece without its line feed, and without a carriage return before the line
feed. -/
def chomp (piece : Text) : Text :=
  match before? ['\n'] piece with
  | none => piece
  | some line => (before? ['\r'] line).getD line

theorem before?_eq_some_iff {tail s front : Text} :
    before? tail s = some front ↔ s = front ++ tail := by
  rw [before?, Option.map_eq_some_iff]
  constructor
  · rintro ⟨rest, cut, rfl⟩
    rw [after?_eq_some_iff] at cut
    simpa using congrArg List.reverse cut
  · rintro rfl
    exact ⟨front.reverse, after?_eq_some_iff.2 (List.reverse_append ..),
      List.reverse_reverse front⟩

/-- A character in front matters only if the tail begins with it. -/
theorem before?_cons {tail s : Text} {c : Char} (whole : c :: s ≠ tail) :
    before? tail (c :: s) = (before? tail s).map (c :: ·) := by
  ext front
  rw [Option.map_eq_some_iff, before?_eq_some_iff]
  constructor
  · intro cut
    cases front with
    | nil => exact absurd cut whole
    | cons d front =>
      obtain ⟨rfl, rest⟩ := List.cons.inj cut
      exact ⟨front, before?_eq_some_iff.2 rest, rfl⟩
  · rintro ⟨front, cut, rfl⟩
    rw [before?_eq_some_iff.1 cut]
    rfl

theorem splitEnding_cons {c : Char} {piece : Text} (feed : c :: piece ≠ ['\n'])
    (returnFeed : c :: piece ≠ ['\r', '\n']) :
    splitEnding (c :: piece) =
      ⟨c :: (splitEnding piece).content, (splitEnding piece).ending⟩ := by
  unfold splitEnding
  rw [before?_cons returnFeed, before?_cons feed]
  cases before? ['\r', '\n'] piece with
  | some content => rfl
  | none =>
    cases before? ['\n'] piece with
    | some content => rfl
    | none => rfl

/-- Chomping leaves the content of the row. -/
theorem content_splitEnding (piece : Text) :
    (splitEnding piece).content = chomp piece := by
  unfold splitEnding chomp
  cases both : before? ['\r', '\n'] piece with
  | some content =>
    have feed : before? ['\n'] piece = some (content ++ ['\r']) := by
      rw [before?_eq_some_iff, before?_eq_some_iff.1 both, List.append_assoc]
      rfl
    have «return» : before? ['\r'] (content ++ ['\r']) = some content :=
      before?_eq_some_iff.2 rfl
    rw [feed]
    simp only [«return», Option.getD_some]
  | none =>
    cases feed : before? ['\n'] piece with
    | none => rfl
    | some line =>
      -- A carriage return at the end of the line would be part of the ending.
      have noReturn : before? ['\r'] line = none := by
        rw [Option.eq_none_iff_forall_not_mem]
        intro front cut
        have ends : before? ['\r', '\n'] piece = some front := by
          rw [before?_eq_some_iff, before?_eq_some_iff.1 feed,
            before?_eq_some_iff.1 cut, List.append_assoc]
          rfl
        rw [both] at ends
        cases ends
      simp only [noReturn, Option.getD_none]

theorem flatten_feedPieces (s : Text) : (feedPieces s).flatten = s := by
  fun_induction feedPieces s with
  | case1 => rfl
  | case2 s ih => rw [List.flatten_cons, ih]; rfl
  | case3 c s noFeed none ih => rw [none] at ih; rw [← ih]; rfl
  | case4 c s noFeed piece pieces some ih => rw [some] at ih; rw [← ih]; rfl

/-- The rows of a text are its pieces with their endings taken off. -/
theorem rows_eq_map_splitEnding (s : Text) :
    rows s = (feedPieces s).map splitEnding := by
  fun_induction rows s with
  | case1 => rfl
  | case2 s ih =>
    rw [ih]
    rfl
  | case3 s ih =>
    rw [ih]
    rfl
  | case4 c s noReturn noFeed ih =>
    have feed (piece : Text) : c :: piece ≠ ['\n'] := by
      intro whole
      exact noFeed (List.cons.inj whole).1
    rw [ih, feedPieces, if_neg noFeed]
    cases cut : feedPieces s with
    | nil =>
      rw [List.map_nil, pushFront, List.map_singleton,
        splitEnding_cons (feed []) (by simp)]
      rfl
    | cons piece pieces =>
      have returnFeed : c :: piece ≠ ['\r', '\n'] := by
        intro whole
        obtain ⟨rfl, rfl⟩ := List.cons.inj whole
        apply noReturn pieces.flatten rfl
        rw [← flatten_feedPieces s, cut]
        rfl
      rw [List.map_cons, pushFront, List.map_cons,
        splitEnding_cons (feed piece) returnFeed]

/-- The lines of a text are its pieces, chomped. -/
theorem lines_eq_map_chomp (s : Text) : lines s = (feedPieces s).map chomp := by
  rw [lines, rows_eq_map_splitEnding, List.map_map]
  exact List.map_congr_left fun piece _ => content_splitEnding piece

end Worksheet.Text

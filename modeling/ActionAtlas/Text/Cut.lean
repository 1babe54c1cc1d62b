/-!
Cutting texts at a mark, at a fixed beginning or ending, and into lines.

All functions work on lists of characters by recursion on the text, so that nothing is lost:
the pieces of a cut, with the mark between them, are the text again.
-/

namespace ActionAtlas.Text

def cutFirst? (mark : Char) : List Char → Option (List Char × List Char)
  | [] => none
  | c :: rest =>
    if c = mark then some ([], rest)
    else (cutFirst? mark rest).map fun cut => (c :: cut.1, cut.2)

def cutLast? [DecidableEq α] (mark : α) : List α → Option (List α × List α)
  | [] => none
  | c :: rest =>
    match cutLast? mark rest with
    | some cut => some (c :: cut.1, cut.2)
    | none => if c = mark then some ([], rest) else none

/-- The runs between the marks of a list: one more than there are marks. -/
def runs (isMark : α → Bool) : List α → List (List α)
  | [] => [[]]
  | x :: rest =>
    if isMark x then [] :: runs isMark rest
    else
      match runs isMark rest with
      | [] => [[x]]
      | run :: others => (x :: run) :: others

def pieces (mark : Char) (text : List Char) : List (List Char) :=
  runs (· == mark) text

def dropInitial? [DecidableEq α] : List α → List α → Option (List α)
  | [], text => some text
  | _ :: _, [] => none
  | c :: initial, d :: text => if c = d then dropInitial? initial text else none

def dropFinal? [DecidableEq α] (final text : List α) : Option (List α) :=
  (dropInitial? final.reverse text.reverse).map List.reverse

def joinWith (mark : List Char) : List (List Char) → List Char
  | [] => []
  | [piece] => piece
  | piece :: next :: others => piece ++ mark ++ joinWith mark (next :: others)

def dropReturn (line : List Char) : List Char :=
  (dropFinal? ['\r'] line).getD line

/-- The lines of a text. A line feed ends a line, so a text that ends in one has no further,
empty line. -/
def lines (text : List Char) : List (List Char) :=
  go (pieces '\n' text)
where
  go : List (List Char) → List (List Char)
    | [] => []
    | [last] => if last.isEmpty then [] else [last]
    | line :: next :: others => dropReturn line :: go (next :: others)

/-- The text behind its first `count` bytes of UTF-8, if a character begins there or the text
ends there. -/
def dropBytes? : Nat → List Char → Option (List Char)
  | 0, text => some text
  | _ + 1, [] => none
  | count + 1, c :: rest =>
    if c.utf8Size ≤ count + 1 then dropBytes? (count + 1 - c.utf8Size) rest else none

def byteLength : List Char → Nat
  | [] => 0
  | c :: rest => c.utf8Size + byteLength rest

def dotted (parts : List String) : String :=
  ".".intercalate parts

theorem cutFirst?_append {mark : Char} {text before after : List Char}
    (cut : cutFirst? mark text = some (before, after)) : before ++ mark :: after = text := by
  induction text generalizing before with
  | nil => simp [cutFirst?] at cut
  | cons c rest ih =>
    simp only [cutFirst?] at cut
    split at cut
    · next same => simp_all
    · next differs =>
      simp only [Option.map_eq_some_iff, Prod.mk.injEq] at cut
      obtain ⟨inner, found, rfl, rfl⟩ := cut
      simp [ih found]

theorem runs_ne_nil (isMark : α → Bool) (list : List α) : runs isMark list ≠ [] := by
  cases list with
  | nil => simp [runs]
  | cons x rest =>
    simp only [runs]
    split
    · simp
    · split <;> simp

theorem joinWith_pieces (mark : Char) (text : List Char) :
    joinWith [mark] (pieces mark text) = text := by
  unfold pieces
  induction text with
  | nil => rfl
  | cons c rest ih =>
    simp only [runs]
    cases found : runs (· == mark) rest with
    | nil => exact absurd found (runs_ne_nil _ _)
    | cons run others =>
      rw [found] at ih
      split
      · next same => simp_all [joinWith]
      · cases others with
        | nil => simpa [joinWith] using ih
        | cons next more => simpa [joinWith] using ih

end ActionAtlas.Text

import Mathlib.Data.List.TakeWhile
import ActionAtlas.Proofs.CSharp.Literals.Standing

/-!
Raw strings of several lines. Every line stands behind an indentation, which stands before the
closing fence as well and is not part of the text. Without an indentation nothing stands before the
closing fence, and the last line of the text is lost, because it is taken for the closing line.
-/

namespace ActionAtlas.CSharp.Literal

def fenceOf (width : Nat) : List Char :=
  List.replicate width '"'

/-- Lines behind an indentation, each with its end, and the indentation of the closing line. -/
def indented (indent : List Char) (lines : List (List Char)) : List Char :=
  lines.flatMap (fun line => indent ++ line ++ ['\n']) ++ indent

def rawText (width : Nat) (indent : List Char) (lines : List (List Char)) : List Char :=
  fenceOf width ++ '\n' :: indented indent lines ++ fenceOf width

/-- No run of quotes in the lines is as long as the fence. -/
structure IsRawText (width : Nat) (indent : List Char) (lines : List (List Char)) : Prop where
  wide : 3 ≤ width
  some : lines ≠ []
  blank : ∀ c ∈ indent, c = ' ' ∨ c = '\t'
  single : ∀ line ∈ lines, '\n' ∉ line ∧ '\r' ∉ line
  unfenced : ∀ line ∈ lines, ¬fenceOf width <:+: line

/-! ### Extents -/

theorem indented_cons (indent line : List Char) (others : List (List Char)) :
    indented indent (line :: others) = indent ++ (line ++ '\n' :: indented indent others) := by
  simp [indented]

theorem raw_cons {c : Char} (other : c ≠ '"') (width run : Nat) (rest : List Char) :
    Extent.raw width run (c :: rest) = Extent.raw width 0 rest + 1 := by
  rw [Extent.raw]
  exact other

theorem raw_append {width : Nat} {blank : List Char} (noQuote : '"' ∉ blank)
    (rest : List Char) :
    Extent.raw width 0 (blank ++ rest) = Extent.raw width 0 rest + blank.length := by
  induction blank with
  | nil => rfl
  | cons c more ih =>
      rw [List.mem_cons, not_or] at noQuote
      rw [List.cons_append, raw_cons (Ne.symm noQuote.1), ih noQuote.2, List.length_cons,
        Nat.add_assoc]

/-- A fence is not closed on the line. The induction carries the quotes right before it. -/
theorem raw_line {width run : Nat} {line : List Char}
    (shorter : ¬fenceOf width <:+: List.replicate run '"' ++ line) {c : Char} (other : c ≠ '"')
    (rest : List Char) :
    Extent.raw width run (line ++ c :: rest) = Extent.raw width 0 rest + (line.length + 1) := by
  induction line generalizing run with
  | nil => exact raw_cons other width run rest
  | cons d more ih =>
      by_cases quote : d = '"'
      · subst quote
        have longer : List.replicate run '"' ++ '"' :: more =
            List.replicate (run + 1) '"' ++ more := by
          rw [List.replicate_succ', List.append_assoc, List.singleton_append]
        rw [longer] at shorter
        have still : run + 1 ≠ width := by
          rintro rfl
          exact shorter (List.infix_append' [] _ more)
        rw [List.cons_append, Extent.raw, if_neg fun closed => still closed.1, ih shorter,
          List.length_cons]
        omega
      · have behind : ¬fenceOf width <:+: List.replicate 0 '"' ++ more := by
          intro inside
          refine shorter (inside.trans (List.IsSuffix.isInfix ?_))
          rw [List.append_cons]
          exact List.suffix_append _ more
        rw [List.cons_append, raw_cons quote, ih behind, List.length_cons]
        omega

theorem raw_fence {width run : Nat} (count : Nat) (width_eq : run + (count + 1) = width)
    {rest : List Char} (ends : rest.head? ≠ some '"') :
    Extent.raw width run (fenceOf (count + 1) ++ rest) = count + 1 := by
  induction count generalizing run with
  | zero =>
      have closed : run + 1 = width ∧ ([] ++ rest).head? ≠ some '"' := ⟨width_eq, ends⟩
      rw [fenceOf, List.replicate_succ, List.cons_append, Extent.raw]
      exact if_pos closed
  | succ count ih =>
      have further : (List.replicate (count + 1) '"' ++ rest).head? = some '"' := rfl
      have stillOpen : ¬(run + 1 = width ∧
          (List.replicate (count + 1) '"' ++ rest).head? ≠ some '"') := fun both => both.2 further
      rw [fenceOf, List.replicate_succ, List.cons_append, Extent.raw, if_neg stillOpen]
      exact congrArg (· + 1) (ih (by omega))

variable {width : Nat} {indent : List Char} {lines : List (List Char)}

theorem IsRawText.notMem_indent {c : Char} (isRaw : IsRawText width indent lines)
    (visible : ¬(c = ' ' ∨ c = '\t')) : c ∉ indent :=
  fun inside => visible (isRaw.blank c inside)

theorem raw_indented (noQuote : '"' ∉ indent)
    (unfenced : ∀ line ∈ lines, ¬fenceOf width <:+: line) (rest : List Char) :
    Extent.raw width 0 (indented indent lines ++ rest) =
      Extent.raw width 0 rest + (indented indent lines).length := by
  induction lines with
  | nil => exact raw_append noQuote rest
  | cons line others ih =>
      rw [List.forall_mem_cons] at unfenced
      have unclosed : ¬fenceOf width <:+: List.replicate 0 '"' ++ line := unfenced.1
      rw [indented_cons, List.append_assoc, raw_append noQuote, List.append_assoc,
        List.cons_append, raw_line unclosed (by decide), ih unfenced.2]
      simp only [List.length_append, List.length_cons]
      omega

theorem string_rawText (isRaw : IsRawText width indent lines) {rest : List Char}
    (follows : MayFollow rest) :
    Extent.string (rawText width indent lines ++ rest) =
      (.rawString, (rawText width indent lines).length) := by
  have fence : Extent.quotes (rawText width indent lines ++ rest) = width := by
    rw [rawText, List.append_assoc, List.append_assoc]
    exact Extent.quotes_replicate width (by simp)
  have inner : (rawText width indent lines ++ rest).drop width =
      '\n' :: (indented indent lines ++ (fenceOf width ++ rest)) := by
    rw [rawText, List.append_assoc, List.append_assoc, List.cons_append]
    exact List.drop_left' List.length_replicate
  obtain ⟨count, width_eq⟩ : ∃ count, 0 + (count + 1) = width :=
    ⟨width - 1, by have := isRaw.wide; omega⟩
  have closing : Extent.raw width 0 (fenceOf width ++ rest) = width := by
    have closed := raw_fence count width_eq follows.unquoted
    rw [Nat.zero_add] at width_eq
    rwa [width_eq] at closed
  have extent : width + Extent.raw width 0 ('\n' :: (indented indent lines ++
      (fenceOf width ++ rest))) = (rawText width indent lines).length := by
    rw [raw_cons (by decide), raw_indented (isRaw.notMem_indent (by decide)) isRaw.unfenced, closing]
    simp only [rawText, fenceOf, List.length_append, List.length_cons, List.length_replicate]
    omega
  rw [Extent.string, fence, if_pos isRaw.wide, inner]
  simp only [extent, List.drop_left, follows.unencoded, Nat.add_zero]

/-! ### Lines -/

theorem pieces_indented (noFeed : '\n' ∉ indent) (single : ∀ line ∈ lines, '\n' ∉ line) :
    Text.pieces '\n' (indented indent lines) = lines.map (indent ++ ·) ++ [indent] := by
  induction lines with
  | nil => exact Text.pieces_of_not_mem noFeed
  | cons line others ih =>
      rw [List.forall_mem_cons] at single
      rw [indented_cons, ← List.append_assoc, Text.pieces_append,
        Text.pieces_of_not_mem (List.not_mem_append noFeed single.1), ih single.2]
      rfl

/-- Lines without returns are kept as they are, and the last one only if it is not empty. -/
theorem lines_go_of_noReturn {pieces : List (List Char)} (noReturn : ∀ piece ∈ pieces, '\r' ∉ piece)
    (last : List Char) :
    Text.lines.go (pieces ++ [last]) = pieces ++ if last.isEmpty then [] else [last] := by
  induction pieces with
  | nil => rfl
  | cons piece others ih =>
      rw [List.forall_mem_cons] at noReturn
      have step : Text.lines.go (piece :: (others ++ [last])) =
          Text.dropReturn piece :: Text.lines.go (others ++ [last]) := by
        cases others <;> rfl
      rw [List.cons_append, step, Text.dropReturn_of_not_mem noReturn.1, ih noReturn.2,
        List.cons_append]

theorem lines_indented (isRaw : IsRawText width indent lines) :
    Text.lines ('\n' :: indented indent lines) =
      [] :: (lines.map (indent ++ ·) ++ if indent.isEmpty then [] else [indent]) := by
  have noReturn : ∀ piece ∈ [] :: lines.map (indent ++ ·), '\r' ∉ piece := by
    rw [List.forall_mem_cons, List.forall_mem_map]
    refine ⟨List.not_mem_nil, fun line inside => ?_⟩
    exact List.not_mem_append (isRaw.notMem_indent (by decide)) (isRaw.single line inside).2
  have cut : Text.pieces '\n' ('\n' :: indented indent lines) =
      ([] :: lines.map (indent ++ ·)) ++ [indent] := by
    rw [← List.nil_append ('\n' :: _), Text.pieces_append,
      pieces_indented (isRaw.notMem_indent (by decide)) fun line inside =>
        (isRaw.single line inside).1]
    rfl
  rw [Text.lines, cut, lines_go_of_noReturn noReturn, List.cons_append]

/-! ### Values -/

theorem trimStart_of_blank (blank : ∀ c ∈ indent, c = ' ' ∨ c = '\t') :
    Text.trimStart indent = [] := by
  refine List.dropWhile_eq_nil_iff.mpr fun c inside => ?_
  rcases blank c inside with rfl | rfl <;> decide

theorem outdent_append (indent line : List Char) :
    outdent (Text.byteLength indent) (indent ++ line) = line := by
  rw [outdent, Text.dropBytes?_append, Option.getD_some]

theorem outdent_suffix (count : Nat) (line : List Char) : outdent count line <:+ line := by
  rw [outdent]
  cases dropped : Text.dropBytes? count line with
  | none => exact List.dropWhile_suffix _
  | some rest => exact Text.suffix_of_dropBytes? dropped

/-- What is read if no line stands before the closing fence: the last line is taken for it, so it
is lost, and the others lose the blanks that lead it. -/
def cutShort (lines : List (List Char)) : List (List Char) :=
  match lines.getLast? with
  | none => []
  | some last =>
    lines.dropLast.map (outdent (Text.byteLength last - Text.byteLength (Text.trimStart last)))

theorem length_cutShort (some : lines ≠ []) : (cutShort lines).length + 1 = lines.length := by
  have visible := List.length_pos_iff.mpr some
  rw [cutShort, List.getLast?_eq_some_getLast some, List.length_map, List.length_dropLast]
  omega

theorem suffix_of_mem_cutShort {line : List Char} (inside : line ∈ cutShort lines) :
    ∃ whole ∈ lines, line <:+ whole := by
  rw [cutShort] at inside
  split at inside
  · cases inside
  · obtain ⟨whole, kept, rfl⟩ := List.mem_map.mp inside
    exact ⟨whole, List.dropLast_subset lines kept, outdent_suffix _ whole⟩

/-- Only a text of one empty line is whole without its last line: of any other text the line feed
before the last line, or the only line itself, is missing. -/
theorem joinWith_cutShort_eq_iff (some : lines ≠ []) (single : ∀ line ∈ lines, '\n' ∉ line) :
    Text.joinWith ['\n'] (cutShort lines) = Text.joinWith ['\n'] lines ↔ lines = [[]] := by
  constructor
  · intro same
    have feeds := Text.count_joinWith some single
    rw [← same] at feeds
    have one := length_cutShort some
    by_cases none : cutShort lines = []
    · rw [none, List.length_nil] at one
      obtain ⟨line, rfl⟩ := List.length_eq_one_iff.mp one.symm
      rw [none, Text.joinWith, Text.joinWith] at same
      rw [same]
    · have singleShort : ∀ line ∈ cutShort lines, '\n' ∉ line := by
        intro line inside feed
        obtain ⟨whole, among, suffix⟩ := suffix_of_mem_cutShort inside
        exact single whole among (suffix.subset feed)
      have fewer := Text.count_joinWith none singleShort
      omega
  · rintro rfl
    rfl

theorem rawContent_indented (isRaw : IsRawText width indent lines) :
    rawContent ('\n' :: indented indent lines) =
      Text.joinWith ['\n'] (if indent = [] then cutShort lines else lines) := by
  have several : ¬(!('\n' :: indented indent lines).contains '\n') = true := by simp
  rw [rawContent, if_neg several, lines_indented isRaw]
  by_cases unindented : indent = []
  · subst unindented
    have kept : lines.map ([] ++ ·) ++ (if ([] : List Char).isEmpty then [] else [[]]) = lines := by
      simp
    simp only [kept, if_true, cutShort]
    cases last : lines.getLast? with
    | none => exact absurd (List.getLast?_eq_none_iff.mp last) isRaw.some
    | some closing => rfl
  · have visible : ¬indent.isEmpty = true := by simpa using unindented
    have stripped : (lines.map (indent ++ ·)).map (outdent (Text.byteLength indent)) = lines := by
      rw [List.map_map]
      exact List.map_id'' (outdent_append indent) lines
    simp only [if_neg visible, if_neg unindented, List.getLast?_concat, List.dropLast_concat,
      trimStart_of_blank isRaw.blank, Text.byteLength, Nat.sub_zero, stripped]

theorem constant?_rawText (isRaw : IsRawText width indent lines) :
    constant? .rawString (rawText width indent lines) =
      some (.string (String.ofList
        (Text.joinWith ['\n'] (if indent = [] then cutShort lines else lines)))) := by
  have fence : (rawText width indent lines).takeWhile (· == '"') = fenceOf width := by
    rw [rawText, List.append_assoc]
    exact Extent.takeWhile_quotes width (by simp)
  have wide : ¬((fenceOf width).length < 3 ∨
      (rawText width indent lines).length < 2 * (fenceOf width).length) := by
    have := isRaw.wide
    simp only [rawText, fenceOf, List.length_append, List.length_replicate, List.length_cons]
    omega
  rw [constant?, rawString?, fence, if_neg wide, rawText, between?_append, Option.map_some,
    Option.map_some, rawContent_indented isRaw]

theorem denotes_rawText (isRaw : IsRawText width indent lines) :
    Denotes (rawText width indent lines) (.string (String.ofList
      (Text.joinWith ['\n'] (if indent = [] then cutShort lines else lines)))) := by
  obtain ⟨count, rfl⟩ : ∃ count, count + 1 = width := ⟨width - 1, by have := isRaw.wide; omega⟩
  exact denotes_of_extent rfl (by decide) (fun rest follows => string_rawText isRaw follows)
    (constant?_rawText isRaw)

/-- A raw string of several lines stands for these lines exactly if they are indented or if there
is nothing but one empty line. -/
theorem denotes_rawText_iff (isRaw : IsRawText width indent lines) :
    (Denotes (rawText width indent lines) (.string (String.ofList (Text.joinWith ['\n'] lines))) ↔
      indent ≠ [] ∨ lines = [[]]) ∧
    (indent = [] → Denotes (rawText width indent lines)
      (.string (String.ofList (Text.joinWith ['\n'] (cutShort lines))))) := by
  have read := denotes_rawText isRaw
  by_cases unindented : indent = []
  · rw [if_pos unindented] at read
    refine ⟨⟨fun denotes => .inr ?_, fun whole => ?_⟩, fun _ => read⟩
    · have same := String.ofList_injective (Constant.string.inj (read.unique denotes))
      exact (joinWith_cutShort_eq_iff isRaw.some fun line inside =>
        (isRaw.single line inside).1).mp same
    · have only := whole.resolve_left (not_not.mpr unindented)
      subst only
      exact read
  · rw [if_neg unindented] at read
    exact ⟨⟨fun _ => .inl unindented, fun _ => read⟩, fun none => absurd none unindented⟩

/-- Lines with quotes in them, without characters and with blanks of their own. -/
def severalLines : List (List Char) :=
  ["a \"\"\" b".toList, [], "  c".toList]

/-- Without an indentation the only line is lost; with one, every line is kept as it is. -/
theorem denotes_rawText_iff_foo :
    (IsRawText 3 [] ["foo".toList] ∧ ¬Denotes (rawText 3 [] ["foo".toList]) (.string "foo") ∧
      Denotes (rawText 3 [] ["foo".toList]) (.string "")) ∧
    IsRawText 4 " \t".toList severalLines ∧
      Denotes (rawText 4 " \t".toList severalLines) (.string "a \"\"\" b\n\n  c") := by
  have isRawFoo : IsRawText 3 [] ["foo".toList] :=
    ⟨by decide, by decide, by simp, by decide, by decide⟩
  have isRawSeveral : IsRawText 4 " \t".toList severalLines :=
    ⟨by decide, by decide, by simp, by decide, by decide +kernel⟩
  obtain ⟨fooIff, fooCut⟩ := denotes_rawText_iff isRawFoo
  have whole := (denotes_rawText_iff isRawSeveral).1.mpr (.inl (by decide))
  have joined : String.ofList (Text.joinWith ['\n'] severalLines) = "a \"\"\" b\n\n  c" := by
    decide
  rw [joined] at whole
  exact ⟨⟨isRawFoo, fun denotes => absurd (fooIff.mp denotes) (by decide), fooCut rfl⟩,
    isRawSeveral, whole⟩

end ActionAtlas.CSharp.Literal

import ActionAtlas.Proofs.CSharp.Literals.RawStrings

/-!
Texts with quotes in them, in the literals that know no escapes. In a verbatim string every quote
is doubled, and a raw string on one line has a fence that is wider than the runs of quotes in it.
Either literal stands for its text, wherever the quotes are.
-/

namespace ActionAtlas.CSharp.Literal

def doubled : List Char → List Char
  | [] => []
  | c :: rest => if c = '"' then '"' :: '"' :: doubled rest else c :: doubled rest

theorem doubled_quote (rest : List Char) : doubled ('"' :: rest) = '"' :: '"' :: doubled rest :=
  if_pos rfl

theorem doubled_cons {c : Char} (other : c ≠ '"') (rest : List Char) :
    doubled (c :: rest) = c :: doubled rest :=
  if_neg other

def verbatimText (text : List Char) : List Char :=
  '@' :: '"' :: (doubled text ++ ['"'])

def fencedText (width : Nat) (text : List Char) : List Char :=
  fenceOf width ++ text ++ fenceOf width

/-- A text that a raw string can hold on one line. No run of quotes in it is as long as the
fence, and none touches it. -/
structure IsFenced (width : Nat) (text : List Char) : Prop where
  wide : 3 ≤ width
  visible : text ≠ []
  single : '\n' ∉ text
  unfenced : ¬fenceOf width <:+: text
  first : text.head? ≠ some '"'
  last : text.getLast? ≠ some '"'

/-! ### Verbatim strings -/

theorem undouble_doubled (text : List Char) : undouble (doubled text) = text := by
  induction text with
  | nil => rfl
  | cons c rest ih =>
      by_cases quote : c = '"'
      · subst quote
        rw [doubled_quote, undouble, ih]
      · rw [doubled_cons quote, undouble, ih]
        intro behind isQuote
        exact absurd isQuote quote

/-- The scan goes over the quotes by pairs, so that the one behind the text is the first without
a partner. -/
theorem verbatim_doubled (text : List Char) {rest : List Char} (ends : rest.head? ≠ some '"') :
    Extent.verbatim (doubled text ++ '"' :: rest) = (doubled text).length + 1 := by
  induction text with
  | nil =>
      have alone : ∀ behind, rest = '"' :: behind → False := by
        rintro behind rfl
        exact ends rfl
      rw [doubled, List.nil_append, Extent.verbatim, List.length_nil]
      exact alone
  | cons c others ih =>
      by_cases quote : c = '"'
      · subst quote
        rw [doubled_quote, List.cons_append, List.cons_append, Extent.verbatim, ih,
          List.length_cons, List.length_cons]
      · rw [doubled_cons quote, List.cons_append, Extent.verbatim, ih, List.length_cons]
        · intro behind isQuote
          exact absurd isQuote quote
        · exact quote

theorem token_verbatim (text : List Char) {rest : List Char} (follows : MayFollow rest) :
    Extent.token '@' ('"' :: (doubled text ++ ['"']) ++ rest) =
      (.verbatimString, ('"' :: (doubled text ++ ['"'])).length + 1) := by
  have extent (behind : List Char) : Extent.token '@' ('"' :: behind) =
      (.verbatimString, 2 + Extent.verbatim behind +
        Extent.encoding (('@' :: '"' :: behind).drop (2 + Extent.verbatim behind))) := rfl
  have closed : Extent.verbatim (doubled text ++ ['"'] ++ rest) = (doubled text).length + 1 := by
    rw [List.append_assoc]
    exact verbatim_doubled text follows.unquoted
  have behind : ('@' :: '"' :: (doubled text ++ ['"'] ++ rest)).drop
      (2 + ((doubled text).length + 1)) = rest := by
    rw [Nat.add_comm 2, List.drop_succ_cons, List.drop_succ_cons]
    exact List.drop_left' List.length_append
  rw [List.cons_append, extent, closed, behind, follows.unencoded]
  simp only [List.length_cons, List.length_append, List.length_nil, Prod.mk.injEq, true_and]
  omega

theorem constant?_verbatim (text : List Char) :
    constant? .verbatimString (verbatimText text) = some (.string (String.ofList text)) := by
  have inner : between? ['@', '"'] ['"'] (verbatimText text) = some (doubled text) :=
    between?_append ['@', '"'] (doubled text) ['"']
  rw [constant?, verbatimString?, inner, Option.map_some, Option.map_some, undouble_doubled]

theorem denotes_verbatimText (text : List Char) :
    Denotes (verbatimText text) (.string (String.ofList text)) :=
  denotes_of_extent rfl (by decide) (fun _ follows => token_verbatim text follows)
    (constant?_verbatim text)

/-! ### Raw strings on one line -/

variable {width : Nat} {text : List Char}

theorem IsFenced.head?_append (isFenced : IsFenced width text) (rest : List Char) :
    (text ++ rest).head? ≠ some '"' := by
  cases text with
  | nil => exact absurd rfl isFenced.visible
  | cons c others => exact isFenced.first

theorem raw_fenced (isFenced : IsFenced width text) {rest : List Char}
    (ends : rest.head? ≠ some '"') :
    Extent.raw width 0 (text ++ (fenceOf width ++ rest)) = text.length + width := by
  -- the line is what stands before the last character, which is no quote
  obtain ⟨before, last, text_eq⟩ := text.eq_nil_or_concat.resolve_left isFenced.visible
  rw [List.concat_eq_append] at text_eq
  subst text_eq
  have other : last ≠ '"' := by
    rintro rfl
    exact isFenced.last List.getLast?_concat
  have shorter : ¬fenceOf width <:+: List.replicate 0 '"' ++ before := fun inside =>
    isFenced.unfenced (inside.trans (List.prefix_append before [last]).isInfix)
  obtain ⟨count, rfl⟩ : ∃ count, count + 1 = width :=
    ⟨width - 1, by have := isFenced.wide; omega⟩
  rw [List.append_assoc, List.singleton_append, raw_line shorter other,
    raw_fence count (Nat.zero_add _) ends, List.length_append, List.length_singleton]
  omega

theorem string_fenced (isFenced : IsFenced width text) {rest : List Char}
    (follows : MayFollow rest) :
    Extent.string (fencedText width text ++ rest) =
      (.rawString, (fencedText width text).length) := by
  have whole : fencedText width text ++ rest =
      fenceOf width ++ (text ++ (fenceOf width ++ rest)) := by
    rw [fencedText, List.append_assoc, List.append_assoc]
  have fence : Extent.quotes (fencedText width text ++ rest) = width := by
    rw [whole]
    exact Extent.quotes_replicate width (isFenced.head?_append _)
  have inner : (fencedText width text ++ rest).drop width = text ++ (fenceOf width ++ rest) := by
    rw [whole]
    exact List.drop_left' List.length_replicate
  have extent : width + (text.length + width) = (fencedText width text).length := by
    simp only [fencedText, fenceOf, List.length_append, List.length_replicate]
    omega
  rw [Extent.string, fence, if_pos isFenced.wide, inner, raw_fenced isFenced follows.unquoted]
  simp only [extent, List.drop_left, follows.unencoded, Nat.add_zero]

theorem constant?_fenced (isFenced : IsFenced width text) :
    constant? .rawString (fencedText width text) = some (.string (String.ofList text)) := by
  have fence : (fencedText width text).takeWhile (· == '"') = fenceOf width := by
    rw [fencedText, List.append_assoc]
    exact Extent.takeWhile_quotes width (isFenced.head?_append _)
  have wide : ¬((fenceOf width).length < 3 ∨
      (fencedText width text).length < 2 * (fenceOf width).length) := by
    have := isFenced.wide
    simp only [fencedText, fenceOf, List.length_append, List.length_replicate]
    omega
  have oneLine : (!text.contains '\n') = true := by simpa using isFenced.single
  rw [constant?, rawString?, fence, if_neg wide, fencedText, between?_append, Option.map_some,
    Option.map_some, rawContent, if_pos oneLine]

theorem denotes_fencedText (isFenced : IsFenced width text) :
    Denotes (fencedText width text) (.string (String.ofList text)) := by
  obtain ⟨count, rfl⟩ : ∃ count, count + 1 = width :=
    ⟨width - 1, by have := isFenced.wide; omega⟩
  exact denotes_of_extent rfl (by decide) (fun _ follows => string_fenced isFenced follows)
    (constant?_fenced isFenced)

/-! ### Both kinds of literals -/

/-- Whatever quotes are in a text, its verbatim literal stands for it, and so does its raw literal
on one line, if it can be written as one. -/
theorem denotes_without_escapes :
    (∀ value : String, Denotes (verbatimText value.toList) (.string value)) ∧
    ∀ (value : String) (width : Nat), IsFenced width value.toList →
      Denotes (fencedText width value.toList) (.string value) := by
  constructor
  · intro value
    have denotes := denotes_verbatimText value.toList
    rwa [String.ofList_toList] at denotes
  · intro value width isFenced
    have denotes := denotes_fencedText isFenced
    rwa [String.ofList_toList] at denotes

/-- Quotes at both ends and in a row between quotes, and a run of three within a fence of four. -/
theorem denotes_without_escapes_runs :
    verbatimText "\"a\"\"\nb\"".toList = "@\"\"\"a\"\"\"\"\nb\"\"\"".toList ∧
    Denotes (verbatimText "\"a\"\"\nb\"".toList) (.string "\"a\"\"\nb\"") ∧
    IsFenced 4 "a\"\"\"\\n \"b".toList ∧
    Denotes (fencedText 4 "a\"\"\"\\n \"b".toList) (.string "a\"\"\"\\n \"b") := by
  have isFenced : IsFenced 4 "a\"\"\"\\n \"b".toList :=
    ⟨by decide, by decide, by decide, by decide +kernel, by decide, by decide⟩
  obtain ⟨ofVerbatim, ofRaw⟩ := denotes_without_escapes
  exact ⟨by decide, ofVerbatim _, isFenced, ofRaw _ 4 isFenced⟩

end ActionAtlas.CSharp.Literal

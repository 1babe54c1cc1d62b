import Mathlib.Data.List.Basic
import ActionAtlas.Path
import ActionAtlas.Proofs.Text.Cut
import ActionAtlas.Proofs.Text.Utf8

/-!
Paths, told by what stands between their slashes.

The steps of a path are its pieces other than nothing and one full stop. Normalizing joins them by
slashes, and a path is below a root if the root's beginning and steps lead its own.
-/

namespace ActionAtlas

namespace Path

/-! ### Beginnings and steps -/

def pieces (path : String) : List String :=
  (path.toList.splitOn '/').map String.ofList

def counts (piece : String) : Bool :=
  piece ≠ "" ∧ piece ≠ "."

def steps (path : String) : List String :=
  (pieces path).filter counts

/-- The path starts at the top. -/
def IsAbsolute (path : String) : Prop :=
  path.toList.head? = some '/'

instance : DecidablePred IsAbsolute := fun _ => inferInstanceAs (Decidable (_ = _))

/-- What only the beginning of a path says: that it starts at the top, or here. -/
def start (path : String) : List String :=
  if IsAbsolute path then ["/"]
  else if (pieces path).head? = some "." then ["."]
  else []

def sequence (path : String) : List String :=
  start path ++ steps path

/-- What is left of a sequence without its beginning. -/
def withoutStart (texts : List String) : List String :=
  texts.filter fun text => text ≠ "/" ∧ text ≠ "."

def joined (steps : List String) : String :=
  if steps = [] then "." else "/".intercalate steps

/-- A path as seen from a root. A slash is put between them unless there is one. -/
def join (root inner : String) : String :=
  if IsAbsolute inner then inner
  else if root.toList.getLast? ∈ [none, some '/'] then root ++ inner
  else root ++ "/" ++ inner

theorem pieces_eq (path : String) :
    pieces path = (Text.pieces '/' path.toList).map String.ofList := by
  rw [pieces, Text.pieces_eq_splitOn]

theorem between_bytes (path : String) : between (Text.bytes path) = (pieces path).map Text.bytes := by
  have cut (characters : List Char) :
      between (characters.flatMap String.utf8EncodeChar) =
        (Text.pieces '/' characters).map fun piece => piece.flatMap String.utf8EncodeChar := by
    induction characters with
    | nil => rfl
    | cons c rest ih =>
        rw [List.flatMap_cons]
        by_cases divides : c = '/'
        · subst divides
          have head (path : List UInt8) : between (slash :: path) = [] :: between path := rfl
          have slashEncoded : String.utf8EncodeChar '/' = [slash] := by decide
          have divided : Text.pieces '/' ('/' :: rest) = [] :: Text.pieces '/' rest := rfl
          rw [slashEncoded, List.singleton_append, head, ih, divided, List.map_cons,
            List.flatMap_nil]
        · have undivided : ∀ b ∈ String.utf8EncodeChar c, (b == slash) = false := by
            intro b inside
            rw [beq_eq_false_iff_ne]
            rintro rfl
            have number := Text.toNat_eq_of_mem_utf8EncodeChar inside (by decide)
            exact divides (Char.toNat_inj.mp number)
          have single : ∀ d ∈ [c], (d == '/') = false :=
            List.forall_mem_singleton.mpr (beq_eq_false_iff_ne.mpr divides)
          have front : Text.pieces '/' (c :: rest) =
              (Text.pieces '/' rest).modifyHead ([c] ++ ·) :=
            Text.runs_append_of_no_mark single rest
          have encodedFront (path : List UInt8) : between (String.utf8EncodeChar c ++ path) =
              (between path).modifyHead (String.utf8EncodeChar c ++ ·) :=
            Text.runs_append_of_no_mark undivided path
          rw [encodedFront, ih, front]
          cases Text.pieces '/' rest with
          | nil => rfl
          | cons run others => simp
  rw [Text.bytes_eq, cut, pieces_eq, List.map_map]
  refine List.map_congr_left fun piece _ => ?_
  rw [Function.comp_apply, Text.bytes_eq, String.toList_ofList]

theorem pieces_append (before after : String) :
    pieces (before ++ "/" ++ after) = pieces before ++ pieces after := by
  have characters : (before ++ "/" ++ after).toList = before.toList ++ '/' :: after.toList := by
    simp
  rw [pieces_eq, pieces_eq, pieces_eq, characters, Text.pieces_append, List.map_append]

theorem pieces_ne_nil (path : String) : pieces path ≠ [] := by
  rw [pieces_eq]
  exact mt List.map_eq_nil_iff.mp (Text.runs_ne_nil _ _)

theorem slash_not_mem_of_mem_pieces {path piece : String} (member : piece ∈ pieces path) :
    '/' ∉ piece.toList := by
  rw [pieces_eq, List.mem_map] at member
  obtain ⟨characters, inside, rfl⟩ := member
  rw [String.toList_ofList]
  exact Text.not_mem_of_mem_pieces inside

theorem slash_not_mem_of_mem_steps {path step : String} (member : step ∈ steps path) :
    '/' ∉ step.toList :=
  slash_not_mem_of_mem_pieces (List.mem_of_mem_filter member)

theorem steps_append (before after : String) :
    steps (before ++ "/" ++ after) = steps before ++ steps after := by
  rw [steps, pieces_append, List.filter_append, steps, steps]

theorem head?_pieces_append (before after : String) :
    (pieces (before ++ "/" ++ after)).head? = (pieces before).head? := by
  rw [pieces_append, List.head?_append_of_ne_nil _ (pieces_ne_nil before)]

theorem start_eq_of_heads {path other : String}
    (first : path.toList.head? = other.toList.head?)
    (piece : (pieces path).head? = (pieces other).head?) : start path = start other := by
  have absolute : IsAbsolute path ↔ IsAbsolute other := by
    rw [IsAbsolute, first, IsAbsolute]
  simp only [start, absolute, piece]

/-- Further steps do not change where a path starts. -/
theorem start_append (before after : String) :
    start (before ++ "/" ++ after) = start (before ++ "/") := by
  have whole := head?_pieces_append before ""
  rw [String.append_empty] at whole
  apply start_eq_of_heads
  · cases given : before.toList with
    | nil => simp [given]
    | cons c rest => simp [given]
  · rw [head?_pieces_append, whole]

theorem start_append_slash {path : String} (some : path ≠ "") :
    start (path ++ "/") = start path := by
  have whole := head?_pieces_append path ""
  rw [String.append_empty] at whole
  apply start_eq_of_heads _ whole
  cases given : path.toList with
  | nil => exact absurd (String.toList_eq_nil_iff.mp given) some
  | cons c rest => simp [given]

theorem steps_append_slash (path : String) : steps (path ++ "/") = steps path := by
  have whole := steps_append path ""
  rwa [String.append_empty, show steps "" = [] by decide, List.append_nil] at whole

/-- A slash at the end, unless it is the whole path, says nothing. -/
theorem sequence_append_slash {path : String} (some : path ≠ "") :
    sequence (path ++ "/") = sequence path := by
  rw [sequence, start_append_slash some, steps_append_slash, sequence]

theorem sequence_append (before after : String) :
    sequence (before ++ "/" ++ after) = sequence (before ++ "/") ++ steps after := by
  rw [sequence, start_append, steps_append, sequence, steps_append_slash, List.append_assoc]

/-! ### Components -/

def Component.ofText (text : String) : Component :=
  if text = "/" then .root
  else if text = "." then .current
  else if text = ".." then .parent
  else .name (Text.bytes text)

def Component.told : Component → String
  | .root => "/"
  | .current => "."
  | .parent => ".."
  | .name bytes => Text.lossy bytes

theorem Component.told_ofText (text : String) : (ofText text).told = text := by
  unfold ofText
  split
  · next same => exact same.symm
  · split
    · next same => exact same.symm
    · split
      · next same => exact same.symm
      · exact Text.lossy_bytes text

theorem Component.text?_ofText (text : String) :
    (ofText text).text? = if text = "/" ∨ text = "." then none else some text := by
  unfold ofText
  by_cases root : text = "/"
  · simp [root, text?]
  · by_cases current : text = "."
    · simp [current, text?]
    · by_cases parent : text = ".."
      · simp [parent, text?]
      · simp [root, current, parent, text?, Text.lossy_bytes]

theorem ofPiece?_bytes {piece : String} (undivided : '/' ∉ piece.toList) :
    Component.ofPiece? (Text.bytes piece) =
      if counts piece then some (.ofText piece) else none := by
  have empty : Text.bytes piece = [] ↔ piece = "" := @Text.bytes_inj piece ""
  have current : Text.bytes piece = [fullStop] ↔ piece = "." := @Text.bytes_inj piece "."
  have parent : Text.bytes piece = [fullStop, fullStop] ↔ piece = ".." :=
    @Text.bytes_inj piece ".."
  have root : piece ≠ "/" := by
    rintro rfl
    exact undivided List.mem_cons_self
  simp only [Component.ofPiece?, counts, Component.ofText, empty, current, parent, ne_eq,
    Bool.decide_and, Bool.and_eq_true, decide_eq_true_eq]
  by_cases isEmpty : piece = ""
  · simp [isEmpty]
  · by_cases isCurrent : piece = "."
    · simp [isCurrent]
    · by_cases isParent : piece = ".."
      · simp [isParent]
      · simp [isEmpty, isCurrent, isParent, root]

theorem filterMap_eq_map_filter {α β : Type} {found? : α → Option β} {holds : α → Bool}
    {change : α → β} {items : List α}
    (each : ∀ item ∈ items, found? item = if holds item then some (change item) else none) :
    items.filterMap found? = (items.filter holds).map change := by
  induction items with
  | nil => rfl
  | cons item others ih =>
      rw [List.forall_mem_cons] at each
      rw [List.filterMap_cons, each.1, ih each.2, List.filter_cons]
      cases holds item <;> rfl

/-- Pieces that are not at the beginning are components by themselves. -/
theorem filterMap_ofPiece? (path : String) :
    (between (Text.bytes path)).filterMap Component.ofPiece? =
      (steps path).map Component.ofText := by
  rw [between_bytes, List.filterMap_map, steps]
  exact filterMap_eq_map_filter fun piece member =>
    ofPiece?_bytes (slash_not_mem_of_mem_pieces member)

/-- What only the first piece says, by being nothing before others or a full stop. -/
def lead (first : List UInt8) (others : List (List UInt8)) : List Component :=
  if first = [] ∧ others ≠ [] then [.root]
  else if first = [fullStop] then [.current]
  else []

theorem componentsOfPieces_cons (first : List UInt8) (others : List (List UInt8)) :
    componentsOfPieces (first :: others) =
      lead first others ++ (first :: others).filterMap Component.ofPiece? := by
  rw [componentsOfPieces, lead, List.filterMap_cons]
  by_cases empty : first = []
  · subst empty
    cases others with
    | nil => rfl
    | cons next more => rfl
  · by_cases current : first = [fullStop]
    · subst current
      rfl
    · simp only [empty, current, false_and, if_false, List.nil_append]
      cases Component.ofPiece? first with
      | none => rfl
      | some component => rfl

theorem between_ne_nil (path : List UInt8) : between path ≠ [] :=
  Text.runs_ne_nil _ path

theorem between_append (before after : List UInt8) :
    between (before ++ slash :: after) = between before ++ between after :=
  Text.runs_append (by decide) before after

theorem eq_nil_of_between {path : List UInt8} (nothing : between path = [[]]) : path = [] := by
  cases path with
  | nil => rfl
  | cons b rest =>
      rw [between, Text.runs] at nothing
      split at nothing
      · have further : Text.runs (· == slash) rest ≠ [] := Text.runs_ne_nil _ rest
        simp [further] at nothing
      · split at nothing
        · cases nothing
        · cases nothing

theorem components_append_slash {path : List UInt8} (some : path ≠ []) :
    components (path ++ [slash]) = components path := by
  obtain ⟨first, others, cut⟩ := List.exists_cons_of_ne_nil (between_ne_nil path)
  have leading : lead first (others ++ [[]]) = lead first others := by
    cases others with
    | nil =>
        have named : first ≠ [] := fun nothing => some (eq_nil_of_between (nothing ▸ cut))
        simp [lead, named]
    | cons next more => simp [lead]
  have nothing : [([] : List UInt8)].filterMap Component.ofPiece? = [] := rfl
  rw [components, between_append, cut, components, cut]
  change componentsOfPieces (first :: (others ++ [[]])) = _
  rw [componentsOfPieces_cons, componentsOfPieces_cons, leading, ← List.cons_append,
    List.filterMap_append, nothing, List.append_nil]

theorem isAbsolute_iff {path first : String} {others : List String}
    (cut : pieces path = first :: others) : IsAbsolute path ↔ first = "" ∧ others ≠ [] := by
  rw [pieces_eq] at cut
  rw [IsAbsolute]
  cases given : path.toList with
  | nil =>
      rw [given] at cut
      cases cut
      simp
  | cons c rest =>
      rw [given] at cut
      by_cases absolute : c = '/'
      · subst absolute
        have divided : Text.pieces '/' ('/' :: rest) = [] :: Text.pieces '/' rest := rfl
        rw [divided] at cut
        cases cut
        have further : Text.pieces '/' rest ≠ [] := Text.runs_ne_nil _ rest
        simp [further]
      · obtain ⟨run, more, divided⟩ := Text.pieces_cons_of_ne absolute rest
        rw [divided] at cut
        cases cut
        simp [absolute]

theorem components_bytes (path : String) :
    components (Text.bytes path) = (sequence path).map Component.ofText := by
  obtain ⟨first, others, cut⟩ := List.exists_cons_of_ne_nil (pieces_ne_nil path)
  have empty : Text.bytes first = [] ↔ first = "" := @Text.bytes_inj first ""
  have current : Text.bytes first = [fullStop] ↔ first = "." := @Text.bytes_inj first "."
  have begun : (start path).map Component.ofText =
      lead (Text.bytes first) (others.map Text.bytes) := by
    simp only [start, isAbsolute_iff cut, cut, List.head?_cons, Option.some.injEq, lead, empty,
      current, ne_eq, List.map_eq_nil_iff]
    split
    · rfl
    · split
      · rfl
      · rfl
  rw [sequence, List.map_append, begun, ← filterMap_ofPiece?, components, between_bytes, cut,
    List.map_cons, componentsOfPieces_cons]

theorem render_map_ofText (texts : List String) :
    render (texts.map Component.ofText) = joined (withoutStart texts) := by
  have told : (texts.map Component.ofText).filterMap Component.text? = withoutStart texts := by
    rw [List.filterMap_map, withoutStart, ← List.map_id (texts.filter _)]
    apply filterMap_eq_map_filter
    intro text _
    rw [Function.comp_apply, Component.text?_ofText]
    by_cases lead : text = "/" ∨ text = "." <;> grind
  rw [render, told, joined]
  cases withoutStart texts with
  | nil => rfl
  | cons text others => rfl

/-! ### Normal paths -/

theorem mem_start {path text : String} (member : text ∈ start path) : text = "/" ∨ text = "." := by
  rw [start] at member
  split at member
  · exact .inl (List.mem_singleton.mp member)
  · split at member
    · exact .inr (List.mem_singleton.mp member)
    · cases member

theorem withoutStart_append (texts others : List String) :
    withoutStart (texts ++ others) = withoutStart texts ++ withoutStart others :=
  List.filter_append texts others

theorem withoutStart_start (path : String) : withoutStart (start path) = [] := by
  rw [withoutStart, List.filter_eq_nil_iff]
  intro text member
  rcases mem_start member with rfl | rfl
  · simp
  · simp

theorem withoutStart_steps (path : String) : withoutStart (steps path) = steps path := by
  rw [withoutStart, List.filter_eq_self]
  intro step member
  have counted := (List.mem_filter.mp member).2
  have undivided := slash_not_mem_of_mem_steps member
  simp only [counts, decide_eq_true_eq] at counted ⊢
  refine ⟨?_, counted.2⟩
  rintro rfl
  exact undivided List.mem_cons_self

theorem normalize_eq (path : String) : normalize path = joined (steps path) := by
  rw [normalize, components_bytes, render_map_ofText, sequence, withoutStart_append,
    withoutStart_start, withoutStart_steps, List.nil_append]

theorem pieces_intercalate {texts : List String} (some : texts ≠ [])
    (undivided : ∀ text ∈ texts, '/' ∉ text.toList) : pieces ("/".intercalate texts) = texts := by
  have cut : Text.pieces '/' ("/".intercalate texts).toList = texts.map String.toList :=
    Text.pieces_intercalate some undivided
  rw [pieces_eq, cut, List.map_map]
  exact (List.map_congr_left fun text _ => String.ofList_toList).trans (List.map_id texts)

/-- Joined steps are the steps of what they are joined to. -/
theorem steps_joined_steps (path : String) : steps (joined (steps path)) = steps path := by
  rw [joined]
  split
  · next none =>
    rw [none]
    decide
  · next some =>
    rw [steps, pieces_intercalate some fun step member => slash_not_mem_of_mem_steps member,
      steps, List.filter_filter]
    simp

theorem normalize_normalize (path : String) : normalize (normalize path) = normalize path := by
  rw [normalize_eq path, normalize_eq, steps_joined_steps]

/-! ### Below a root -/

theorem map_ofText_prefix_iff (texts others : List String) :
    texts.map Component.ofText <+: others.map Component.ofText ↔ texts <+: others := by
  have back (texts : List String) : (texts.map Component.ofText).map Component.told = texts := by
    rw [List.map_map]
    exact (List.map_congr_left fun text _ => Component.told_ofText text).trans (List.map_id texts)
  constructor
  · intro leads
    have told := leads.map Component.told
    rwa [back, back] at told
  · exact fun leads => leads.map Component.ofText

theorem relative_eq (root path : String) :
    relative root path =
      if sequence root <+: sequence path then
        .ok (joined (withoutStart ((sequence path).drop (sequence root).length)))
      else .error ⟨root, path⟩ := by
  rw [relative, below, below?, components_bytes, components_bytes, Text.lossy_bytes,
    Text.lossy_bytes]
  simp only [List.isPrefixOf_iff_prefix, map_ofText_prefix_iff, List.length_map, ← List.map_drop,
    render_map_ofText]
  by_cases leads : sequence root <+: sequence path
  · rw [if_pos leads, if_pos leads]
  · rw [if_neg leads, if_neg leads]

theorem relative_of_sequence_eq {root path : String} {rest : List String}
    (below : sequence path = sequence root ++ rest) :
    relative root path = .ok (joined (withoutStart rest)) := by
  have leads : sequence root <+: sequence path := ⟨rest, below.symm⟩
  rw [relative_eq, if_pos leads, below, List.drop_left]

theorem relative_eq_error_iff (root path : String) :
    relative root path = .error ⟨root, path⟩ ↔ ¬sequence root <+: sequence path := by
  rw [relative_eq]
  by_cases leads : sequence root <+: sequence path
  · rw [if_pos leads]
    exact iff_of_false nofun (not_not_intro leads)
  · rw [if_neg leads]
    exact iff_of_true rfl leads

/-- Behind a root stand the steps of the path that was joined to it, and at most its beginning. -/
theorem exists_sequence_join (root : String) {inner : String} (here : ¬IsAbsolute inner) :
    ∃ lead, sequence (join root inner) = sequence root ++ (lead ++ steps inner) ∧
      withoutStart lead = [] := by
  rw [join, if_neg here]
  by_cases empty : root = ""
  · refine ⟨start inner, ?_, withoutStart_start inner⟩
    rw [empty, show sequence "" = [] by decide]
    simp [sequence]
  · refine ⟨[], ?_, rfl⟩
    rw [List.nil_append]
    by_cases closed : root.toList.getLast? = some '/'
    · -- The slash at the end of the root parts it from the path.
      obtain ⟨front, characters⟩ := List.getLast?_eq_some_iff.mp closed
      have split : root = String.ofList front ++ "/" := by
        rw [← String.toList_inj, characters]
        simp
      rw [if_pos (by simp [closed]), split, sequence_append]
    · rw [if_neg (by simp [closed, empty]), sequence_append, sequence_append_slash empty]

theorem relative_join {root inner : String} (here : ¬IsAbsolute inner) :
    relative root (join root inner) = .ok (normalize inner) := by
  obtain ⟨lead, below, silent⟩ := exists_sequence_join root here
  rw [relative_of_sequence_eq below, withoutStart_append, silent, withoutStart_steps,
    List.nil_append, normalize_eq]

/-- Paths are normalized to their joined steps, once and for all. Below a root, a path comes back as
what was joined to the root, and exactly the paths that the root does not lead are refused. -/
theorem normalize_and_relative (root path inner : String) (here : ¬IsAbsolute inner) :
    normalize path = joined (steps path) ∧
      normalize (normalize path) = normalize path ∧
      relative root (join root inner) = .ok (normalize inner) ∧
      (∀ rest, sequence path = sequence root ++ rest →
        relative root path = .ok (joined (withoutStart rest))) ∧
      (relative root path = .error ⟨root, path⟩ ↔ ¬sequence root <+: sequence path) :=
  ⟨normalize_eq path, normalize_normalize path, relative_join here,
    fun _ below => relative_of_sequence_eq below, relative_eq_error_iff root path⟩

/-- The parent of a folder of the place where one is. -/
theorem normalize_and_relative_dotted :
    ¬IsAbsolute "..//.//b/" ∧
      normalize ".//a/../b/./" = "a/../b" ∧
      relative "./a/." (join "./a/." "..//.//b/") = .ok (normalize "..//.//b/") ∧
      (relative "./a/." ".//a/../b/./" = .ok "../b") ∧
      ¬relative "./a/." ".//a/../b/./" = .error ⟨"./a/.", ".//a/../b/./"⟩ := by
  have here : ¬IsAbsolute "..//.//b/" := by decide
  obtain ⟨normal, -, joined, below, outside⟩ :=
    normalize_and_relative "./a/." ".//a/../b/./" "..//.//b/" here
  refine ⟨here, ?_, joined, ?_, ?_⟩
  · rw [normal]
    decide
  · rw [below ["..", "b"] (by decide)]
    decide
  · rw [outside, not_not]
    exact ⟨["..", "b"], by decide⟩

end Path

end ActionAtlas

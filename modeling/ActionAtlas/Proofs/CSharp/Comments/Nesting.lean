import ActionAtlas.CSharp.Tree
import ActionAtlas.Proofs.Silence

/-!
Tokens and token trees without their comments.

Comments do not take part in the pairing of brackets, so the trees of tokens without comments are
the trees of the tokens, without the comments at any depth. What is left may be spaced anew:
`spacing` makes the blanks before a token of those that were there.
-/

namespace ActionAtlas.CSharp

/-! ### Tokens -/

namespace Token

variable (spacing : List Char → List Char) (t : Token)

def spaced : Token := { t with gap := spacing t.gap }

/-- The tokens that are no comments, spaced anew. -/
def spoken (tokens : List Token) : List Token :=
  (tokens.filter (!·.isComment)).map (spaced spacing)

@[simp] theorem spaced_kind : (t.spaced spacing).kind = t.kind := rfl

@[simp] theorem spaced_text : (t.spaced spacing).text = t.text := rfl

@[simp] theorem spaced_isComment : (t.spaced spacing).isComment = t.isComment := rfl

@[simp] theorem spaced_isWord (spelling : String) :
    (t.spaced spacing).isWord spelling = t.isWord spelling := rfl

@[simp] theorem spaced_isMark (spelling : String) :
    (t.spaced spacing).isMark spelling = t.isMark spelling := rfl

theorem isMark_of_isComment {t : Token} (comment : t.isComment = true) (spelling : String) :
    t.isMark spelling = false := by
  rw [isComment, beq_iff_eq] at comment
  simp [isMark, comment]

end Token

/-! ### Trees -/

namespace Tree

mutual

def spaced (spacing : List Char → List Char) : Tree → Tree
  | token t => token (t.spaced spacing)
  | group opening children closing =>
    group (opening.spaced spacing) (spoken spacing children) (closing.spaced spacing)

/-- The trees that are no comments, at any depth, spaced anew. -/
def spoken (spacing : List Char → List Char) : List Tree → List Tree
  | [] => []
  | tree :: others =>
    if tree.isComment then spoken spacing others
    else tree.spaced spacing :: spoken spacing others

end

section

variable (spacing : List Char → List Char)

theorem spoken_eq (trees : List Tree) :
    spoken spacing trees = Silence.spoken isComment (spaced spacing) trees := by
  induction trees with
  | nil =>
      rw [spoken]
      rfl
  | cons tree others ih =>
      rw [spoken, ih]
      cases comment : tree.isComment with
      | true => exact (Silence.spoken_cons_of_silent comment others).symm
      | false => exact (Silence.spoken_cons comment others).symm

@[simp] theorem spoken_nil : spoken spacing [] = [] := by
  rw [spoken]

theorem spoken_cons_of_comment {tree : Tree} (comment : tree.isComment = true)
    (others : List Tree) : spoken spacing (tree :: others) = spoken spacing others := by
  rw [spoken, if_pos comment]

theorem spoken_cons {tree : Tree} (said : tree.isComment = false) (others : List Tree) :
    spoken spacing (tree :: others) = tree.spaced spacing :: spoken spacing others := by
  rw [spoken, said]
  rfl

@[simp] theorem spoken_append (trees others : List Tree) :
    spoken spacing (trees ++ others) = spoken spacing trees ++ spoken spacing others := by
  simp [spoken_eq, Silence.spoken]

@[simp] theorem spoken_reverse (trees : List Tree) :
    spoken spacing trees.reverse = (spoken spacing trees).reverse := by
  rw [spoken_eq, spoken_eq, Silence.spoken_reverse]

theorem spoken_cons_token {t : Token} (said : t.isComment = false) (others : List Tree) :
    spoken spacing (.token t :: others) = .token (t.spaced spacing) :: spoken spacing others := by
  have said' : (Tree.token t).isComment = false := said
  rw [spoken_cons spacing said', spaced]

variable (tree : Tree) (spelling : String)

@[simp] theorem spaced_isComment : (tree.spaced spacing).isComment = tree.isComment := by
  cases tree <;> rw [spaced] <;> rfl

@[simp] theorem spaced_isWord :
    (tree.spaced spacing).isWord spelling = tree.isWord spelling := by
  cases tree <;> rw [spaced] <;> rfl

@[simp] theorem spaced_isMark :
    (tree.spaced spacing).isMark spelling = tree.isMark spelling := by
  cases tree <;> rw [spaced] <;> rfl

@[simp] theorem spaced_word? : (tree.spaced spacing).word? = tree.word? := by
  cases tree <;> rw [spaced] <;> rfl

@[simp] theorem spaced_inside? :
    (tree.spaced spacing).inside? spelling = (tree.inside? spelling).map (spoken spacing) := by
  cases tree with
  | token t => rw [spaced]; rfl
  | group opening children closing =>
      rw [spaced, inside?, inside?, Token.spaced_isMark]
      split <;> rfl

@[simp] theorem spaced_isGroup :
    (tree.spaced spacing).isGroup spelling = tree.isGroup spelling := by
  rw [isGroup, spaced_inside?, Option.isSome_map, isGroup]

@[simp] theorem spaced_fitsType : (tree.spaced spacing).fitsType = tree.fitsType := by
  cases tree <;> rw [spaced] <;> rfl

theorem withoutComments_spoken (trees : List Tree) :
    withoutComments (spoken spacing trees) = (withoutComments trees).map (spaced spacing) := by
  rw [spoken_eq]
  exact Silence.filter_spoken (spaced_isComment spacing) trees

end

theorem exists_token_of_isComment {tree : Tree} (comment : tree.isComment = true) :
    ∃ t : Token, tree = .token t ∧ t.kind = .comment := by
  cases tree with
  | token t => exact ⟨t, rfl, eq_of_beq comment⟩
  | group _ _ _ => cases comment

theorem isMark_of_isComment {tree : Tree} (comment : tree.isComment = true) (spelling : String) :
    tree.isMark spelling = false := by
  obtain ⟨t, rfl, kind⟩ := exists_token_of_isComment comment
  exact Token.isMark_of_isComment (beq_iff_eq.mpr kind) spelling

theorem fitsType_of_isComment {tree : Tree} (comment : tree.isComment = true) :
    tree.fitsType = true := by
  obtain ⟨t, rfl, kind⟩ := exists_token_of_isComment comment
  simp [fitsType, Token.isComment, kind]

/-! ### Brackets -/

section

variable (spacing : List Char → List Char)

def Frame.spoken (frame : Frame) : Frame :=
  ⟨frame.opening.spaced spacing, Tree.spoken spacing frame.children⟩

def Nesting.spoken (state : Nesting) : Nesting :=
  ⟨Tree.spoken spacing state.outer, state.frames.map (Frame.spoken spacing)⟩

theorem Frame.loosen_spoken {frame : Frame} (said : frame.opening.isComment = false)
    (before : List Tree) :
    Tree.spoken spacing (frame.loosen before) =
      (frame.spoken spacing).loosen (Tree.spoken spacing before) := by
  rw [Frame.loosen, spoken_append, spoken_cons_token spacing said]
  rfl

namespace Nesting

variable (state : Nesting)

theorem push_comment {tree : Tree} (comment : tree.isComment = true) :
    (state.push tree).spoken spacing = state.spoken spacing := by
  obtain ⟨outer, frames⟩ := state
  cases frames with
  | nil => simp [push, spoken, spoken_cons_of_comment spacing comment]
  | cons frame frames => simp [push, spoken, Frame.spoken, spoken_cons_of_comment spacing comment]

theorem push_spoken {tree : Tree} (said : tree.isComment = false) :
    (state.push tree).spoken spacing = (state.spoken spacing).push (tree.spaced spacing) := by
  obtain ⟨outer, frames⟩ := state
  cases frames with
  | nil => simp [push, spoken, spoken_cons spacing said]
  | cons frame frames => simp [push, spoken, Frame.spoken, spoken_cons spacing said]

theorem push_token_spoken {t : Token} (said : t.isComment = false) :
    (state.push (.token t)).spoken spacing =
      (state.spoken spacing).push (.token (t.spaced spacing)) := by
  have said' : (Tree.token t).isComment = false := said
  rw [push_spoken spacing state said', spaced]

theorem before_spoken : (state.spoken spacing).before = state.before.map (Tree.spaced spacing) := by
  obtain ⟨outer, frames⟩ := state
  cases frames with
  | nil => exact withoutComments_spoken spacing outer
  | cons frame frames => exact withoutComments_spoken spacing frame.children

theorem angleFollows_spaced (trees : List Tree) :
    angleFollows (trees.map (Tree.spaced spacing)) = angleFollows trees := by
  cases trees with
  | nil => rfl
  | cons last others => cases others <;> simp [angleFollows]

theorem giveUpAngles_spoken (outer : List Tree) (frames : List Frame) :
    (giveUpAngles outer frames).spoken spacing =
      giveUpAngles (Tree.spoken spacing outer) (frames.map (Frame.spoken spacing)) := by
  have opening (frame : Frame) : (frame.spoken spacing).opening.isMark "<" =
      frame.opening.isMark "<" := rfl
  have said {frame : Frame} (angle : frame.opening.isMark "<" = true) :
      frame.opening.isComment = false := by
    by_contra comment
    rw [Bool.not_eq_false] at comment
    rw [Token.isMark_of_isComment comment] at angle
    cases angle
  induction frames using giveUpAngles.induct with
  | case1 => rw [giveUpAngles, List.map_nil, giveUpAngles]; rfl
  | case2 frame angle =>
      rw [giveUpAngles, if_pos angle, List.map_singleton, giveUpAngles, opening, if_pos angle,
        spoken, Frame.loosen_spoken spacing (said angle)]
      rfl
  | case3 frame other =>
      rw [giveUpAngles, if_neg other, List.map_singleton, giveUpAngles, opening, if_neg other]
      rfl
  | case4 frame next frames angle ih =>
      rw [giveUpAngles, if_pos angle, ih, List.map_cons, List.map_cons, List.map_cons,
        giveUpAngles, opening, if_pos angle, Frame.spoken, Frame.loosen_spoken spacing (said angle)]
      rfl
  | case5 frame next frames other =>
      rw [giveUpAngles, if_neg other, List.map_cons, List.map_cons, giveUpAngles, opening,
        if_neg other]
      rfl

variable {closing : Token}

theorem close_spoken (said : closing.isComment = false) :
    (state.close closing).spoken spacing =
      (state.spoken spacing).close (closing.spaced spacing) := by
  obtain ⟨outer, frames⟩ := state
  cases frames with
  | nil =>
      rw [close, push_token_spoken spacing _ said]
      rfl
  | cons frame frames =>
      rw [close, push_spoken spacing _ rfl, spaced, spoken_reverse]
      rfl

theorem closeAngle_spoken (said : closing.isComment = false) :
    (state.closeAngle closing).spoken spacing =
      (state.spoken spacing).closeAngle (closing.spaced spacing) := by
  have pushed := push_token_spoken spacing state said
  obtain ⟨outer, frames⟩ := state
  cases frames with
  | nil => exact pushed
  | cons frame frames =>
      have fits : ((frame.spoken spacing).opening.isMark "<"
            && (frame.spoken spacing).children.all fitsType) =
          (frame.opening.isMark "<" && frame.children.all fitsType) := by
        rw [Frame.spoken, Token.spaced_isMark, spoken_eq,
          Silence.all_spoken (fun _ => fitsType_of_isComment) (spaced_fitsType spacing)]
      simp only [closeAngle, spoken, List.map_cons, fits]
      split
      · exact close_spoken spacing ⟨outer, frame :: frames⟩ said
      · exact pushed

/-- A comment leaves the brackets as they are. -/
theorem step_comment {t : Token} (comment : t.isComment = true) :
    (state.step t).spoken spacing = state.spoken spacing := by
  have kind : t.kind ≠ .punctuation := by
    rw [eq_of_beq comment]
    nofun
  rw [step, if_pos kind]
  exact push_comment spacing state comment

theorem step_spoken {t : Token} (said : t.isComment = false) :
    (state.step t).spoken spacing = (state.spoken spacing).step (t.spaced spacing) := by
  have pushed := push_token_spoken spacing state said
  have closed : ((giveUpAngles state.outer state.frames).close t).spoken spacing =
      (giveUpAngles (state.spoken spacing).outer (state.spoken spacing).frames).close
        (t.spaced spacing) := by
    rw [close_spoken spacing _ said, giveUpAngles_spoken]
    rfl
  have opened : (state.openBracket t).spoken spacing =
      (state.spoken spacing).openBracket (t.spaced spacing) := by
    rw [openBracket, spoken, List.map_cons, Frame.spoken, spoken_nil]
    rfl
  have follows : angleFollows (state.spoken spacing).before = angleFollows state.before := by
    rw [before_spoken, angleFollows_spaced]
  rw [step, step, Token.spaced_kind, Token.spaced_text]
  split
  · exact pushed
  · split
    · exact opened
    · exact opened
    · exact opened
    · exact closed
    · exact closed
    · exact closed
    · rw [follows]
      split
      · exact opened
      · exact pushed
    · exact closeAngle_spoken spacing state said
    · exact pushed

theorem foldl_step_spoken (tokens : List Token) :
    (tokens.foldl step state).spoken spacing =
      (Token.spoken spacing tokens).foldl step (state.spoken spacing) := by
  induction tokens generalizing state with
  | nil => rfl
  | cons t others ih =>
      rw [List.foldl_cons, ih]
      cases comment : t.isComment with
      | true => simp [Token.spoken, comment, step_comment spacing state comment]
      | false => simp [Token.spoken, comment, step_spoken spacing state comment]

/-- No bracket is a comment. -/
def OpensNoComment (state : Nesting) : Prop :=
  ∀ frame ∈ state.frames, frame.opening.isComment = false

namespace OpensNoComment

variable {state}

theorem push (opens : state.OpensNoComment) (tree : Tree) : (state.push tree).OpensNoComment := by
  obtain ⟨outer, frames⟩ := state
  cases frames with
  | nil => exact opens
  | cons frame frames =>
      rw [OpensNoComment, List.forall_mem_cons] at opens
      exact List.forall_mem_cons.mpr opens

theorem openBracket (opens : state.OpensNoComment) {t : Token} (said : t.isComment = false) :
    (state.openBracket t).OpensNoComment :=
  List.forall_mem_cons.mpr ⟨said, opens⟩

theorem giveUpAngles {outer : List Tree} {frames : List Frame}
    (opens : OpensNoComment ⟨outer, frames⟩) :
    (Nesting.giveUpAngles outer frames).OpensNoComment := by
  induction frames using giveUpAngles.induct with
  | case1 => rwa [Nesting.giveUpAngles]
  | case2 frame angle =>
      rw [Nesting.giveUpAngles, if_pos angle]
      exact nofun
  | case3 frame other => rwa [Nesting.giveUpAngles, if_neg other]
  | case4 frame next frames angle ih =>
      rw [Nesting.giveUpAngles, if_pos angle]
      rw [OpensNoComment, List.forall_mem_cons, List.forall_mem_cons] at opens
      exact ih (List.forall_mem_cons.mpr opens.2)
  | case5 frame next frames other => rwa [Nesting.giveUpAngles, if_neg other]

theorem close (opens : state.OpensNoComment) (closing : Token) :
    (state.close closing).OpensNoComment := by
  obtain ⟨outer, frames⟩ := state
  cases frames with
  | nil => exact opens.push _
  | cons frame frames =>
      have rest : OpensNoComment ⟨outer, frames⟩ := (List.forall_mem_cons.mp opens).2
      exact rest.push _

theorem closeAngle (opens : state.OpensNoComment) (closing : Token) :
    (state.closeAngle closing).OpensNoComment := by
  rw [Nesting.closeAngle]
  split
  · split
    · exact opens.close closing
    · exact opens.push _
  · exact opens.push _

theorem step (opens : state.OpensNoComment) (t : Token) : (state.step t).OpensNoComment := by
  rw [Nesting.step]
  split
  · exact opens.push _
  · next mark =>
    rw [not_not] at mark
    have said : t.isComment = false := by simp [Token.isComment, mark]
    split
    · exact opens.openBracket said
    · exact opens.openBracket said
    · exact opens.openBracket said
    · exact opens.giveUpAngles.close t
    · exact opens.giveUpAngles.close t
    · exact opens.giveUpAngles.close t
    · split
      · exact opens.openBracket said
      · exact opens.push _
    · exact opens.closeAngle t
    · exact opens.push _

theorem foldl_step (opens : state.OpensNoComment) (tokens : List Token) :
    (tokens.foldl Nesting.step state).OpensNoComment := by
  induction tokens generalizing state with
  | nil => exact opens
  | cons t others ih => exact ih (opens.step t)

end OpensNoComment

theorem finish_spoken {outer : List Tree} {frames : List Frame}
    (opens : OpensNoComment ⟨outer, frames⟩) :
    Tree.spoken spacing (finish outer frames) =
      finish (Tree.spoken spacing outer) (frames.map (Frame.spoken spacing)) := by
  induction frames using finish.induct with
  | case1 => rw [finish, spoken_reverse, List.map_nil, finish]
  | case2 frame =>
      have said := opens frame (by simp)
      rw [finish, spoken_reverse, Frame.loosen_spoken spacing said, List.map_singleton, finish]
  | case3 frame next frames ih =>
      rw [OpensNoComment, List.forall_mem_cons, List.forall_mem_cons] at opens
      rw [finish, ih (List.forall_mem_cons.mpr opens.2), List.map_cons, List.map_cons,
        List.map_cons, finish, Frame.spoken, Frame.loosen_spoken spacing opens.1]
      rfl

end Nesting

/-- The trees of the tokens that are no comments are those of all tokens, without the comments. -/
theorem ofTokens_spoken (tokens : List Token) :
    ofTokens (Token.spoken spacing tokens) = spoken spacing (ofTokens tokens) := by
  have opens : Nesting.OpensNoComment ⟨[], []⟩ := nofun
  rw [ofTokens, ofTokens, Nesting.finish_spoken spacing (opens.foldl_step tokens)]
  have run := Nesting.foldl_step_spoken spacing ⟨[], []⟩ tokens
  have start : Nesting.spoken spacing ⟨[], []⟩ = ⟨[], []⟩ := by
    rw [Nesting.spoken, spoken_nil, List.map_nil]
  rw [start] at run
  rw [← run]
  rfl

end

end Tree

end ActionAtlas.CSharp

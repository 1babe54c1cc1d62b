import ActionAtlas.Proofs.CSharp.Brackets.Pairing

/-!
What tokens form by themselves, whatever brackets are open around them.

An angle that waits for its partner could find it in what is read next. That does not happen to
tokens whose angles are all paired among themselves, and not to what stands behind an equals sign,
because no type goes across one. All other brackets have to be paired among the tokens in both
cases.
-/

namespace ActionAtlas.CSharp.Tree

namespace Nesting

/-! ### Reading in another place -/

/-- What was read by itself, in the place where `base` has been read. -/
def within (state base : Nesting) : Nesting :=
  let behind := pushAll state.outer base
  ⟨behind.outer, state.frames ++ behind.frames⟩

section

variable {state : Nesting} (base : Nesting)

theorem push_within (tree : Tree) :
    (state.push tree).within base = (state.within base).push tree := by
  obtain ⟨outer, frames⟩ := state
  cases frames <;> rfl

theorem pushAll_within (trees : List Tree) :
    (pushAll trees state).within base = pushAll trees (state.within base) := by
  induction trees with
  | nil => rfl
  | cons tree others ih =>
      rw [pushAll, List.foldr_cons, ← pushAll, push_within, ih]
      rfl

theorem openBracket_within (t : Token) :
    (state.openBracket t).within base = (state.within base).openBracket t := rfl

theorem close_within (inside : state.frames ≠ []) (t : Token) :
    (state.close t).within base = (state.within base).close t := by
  obtain ⟨outer, frames⟩ := state
  cases frames with
  | nil => exact absurd rfl inside
  | cons frame frames => exact push_within base _

theorem closeAngle_within (inside : state.frames ≠ []) (t : Token) :
    (state.closeAngle t).within base = (state.within base).closeAngle t := by
  have closed := close_within base inside t
  obtain ⟨outer, frames⟩ := state
  cases frames with
  | nil => exact absurd rfl inside
  | cons frame frames =>
      have same := closeAngle_cons (within ⟨outer, frame :: frames⟩ base).outer frame
        (within ⟨outer, frames⟩ base).frames t
      rw [closeAngle_cons]
      refine Eq.trans ?_ same.symm
      split
      · exact closed
      · exact push_within base _

theorem loosened_within_of_angle (outer : List Tree) {frame : Frame} (frames : List Frame)
    (angle : frame.opening.isMark "<" = true) :
    (within ⟨outer, frame :: frames⟩ base).loosened =
      pushAll (frame.loosen []) (within ⟨outer, frames⟩ base).loosened :=
  loosened_of_angle _ _ angle

theorem loosened_within (inside : state.depth ≠ 0) :
    (state.within base).loosened = state.loosened.within base := by
  obtain ⟨outer, frames⟩ := state
  induction frames with
  | nil => exact absurd rfl inside
  | cons frame frames ih =>
      cases angle : frame.opening.isMark "<" with
      | false =>
          rw [loosened_of_bracket outer frames angle]
          exact loosened_of_bracket _ _ angle
      | true =>
          rw [depth_of_angle outer frames angle] at inside
          rw [loosened_within_of_angle base outer frames angle, ih inside, ← pushAll_within,
            loosened_of_angle outer frames angle]

theorem loosened_within_of_depth_eq_zero (outside : state.depth = 0) :
    (state.within base).loosened = pushAll state.released base.loosened := by
  obtain ⟨outer, frames⟩ := state
  induction frames with
  | nil => exact loosened_pushAll outer base
  | cons frame frames ih =>
      cases angle : frame.opening.isMark "<" with
      | false =>
          rw [depth_of_bracket outer frames angle] at outside
          cases outside
      | true =>
          rw [depth_of_angle outer frames angle] at outside
          rw [loosened_within_of_angle base outer frames angle, ih outside, ← pushAll_append]
          simp [released, Frame.loosen]

theorem before_within (outside : state.frames = []) :
    (state.within base).before = state.before ++ base.before := by
  obtain ⟨outer, frames⟩ := state
  obtain ⟨baseOuter, baseFrames⟩ := base
  cases outside
  cases baseFrames with
  | nil =>
      rw [within, pushAll_outer]
      exact List.filter_append outer baseOuter
  | cons frame frames =>
      rw [within, pushAll_frames]
      exact List.filter_append outer frame.children

theorem step_within {t : Token} (closes : t.closes = true → state.depth ≠ 0)
    (opensAngle : t.isMark "<" = true → state.frames = [] →
      angleFollows (state.before ++ base.before) = angleFollows state.before)
    (closesAngle : t.isMark ">" = true → state.frames = [] →
      (state.within base).closeAngle t = (state.within base).push (.token t)) :
    (state.within base).step t = (state.step t).within base := by
  cases acts t with
  | opens _ _ step_eq => rw [step_eq, step_eq, openBracket_within]
  | closes kind step_eq =>
      have inside := closes kind.2
      have left : state.loosened.frames ≠ [] := by
        intro none
        rw [← depth_loosened, depth, none] at inside
        exact inside rfl
      rw [step_eq, step_eq, ← loosened, ← loosened, loosened_within base inside,
        close_within base left]
  | opensAngle _ angle =>
      have follows : angleFollows (state.within base).before = angleFollows state.before := by
        obtain ⟨outer, frames⟩ := state
        cases frames with
        | nil => rw [before_within base rfl, opensAngle angle rfl]
        | cons frame frames => rfl
      rw [step_of_openAngle angle, step_of_openAngle angle, follows]
      split
      · rw [openBracket_within]
      · rw [push_within]
  | closesAngle _ angle =>
      rw [step_of_closeAngle angle, step_of_closeAngle angle]
      by_cases outside : state.frames = []
      · have pushed : state.closeAngle t = state.push (.token t) := by
          rw [closeAngle, outside]
        rw [closesAngle angle outside, pushed, push_within]
      · exact (closeAngle_within base outside t).symm
  | stands _ step_eq => rw [step_eq, step_eq, push_within]

end

/-! ### Runs -/

section

/-- An angle behind `base` is no part of what was read there. -/
structure IsGuard (base : Nesting) : Prop where
  unfollowed : ∀ trees, angleFollows (trees ++ base.before) = angleFollows trees
  unclosed : ∀ trees t,
    (pushAll trees base).closeAngle t = (pushAll trees base).push (.token t)

/-- No angle stands by itself among the trees. -/
def AreClosed (trees : List Tree) : Prop :=
  ∀ tree ∈ trees, tree.isMark "<" = false ∧ tree.isMark ">" = false

variable {state base : Nesting}

theorem foldl_step_within_of_isGuard (guard : base.IsGuard) {tokens : List Token}
    (paired : Token.arePaired state.depth tokens = true) :
    tokens.foldl step (state.within base) = (tokens.foldl step state).within base := by
  induction tokens generalizing state with
  | nil => rfl
  | cons t others ih =>
      have first : (state.within base).step t = (state.step t).within base := by
        refine step_within base (ne_zero_of_arePaired paired) (fun _ _ => guard.unfollowed _) ?_
        intro _ outside
        have flat : state.within base = pushAll state.outer base := by
          rw [within, outside]; rfl
        rw [flat, guard.unclosed]
      rw [List.foldl_cons, List.foldl_cons, first, ih (arePaired_step paired)]

/-- Behind an equals sign no angle finds its partner before it. -/
theorem isGuard_push_equals {equals : Token} (isEquals : equals.isMark "=" = true)
    (state : Nesting) : (state.push (.token equals)).IsGuard := by
  obtain ⟨kind, gap, text⟩ := equals
  rw [Token.isMark, Bool.and_eq_true, beq_iff_eq, beq_iff_eq] at isEquals
  obtain ⟨rfl, rfl⟩ := isEquals
  have before_eq : (state.push (.token ⟨.punctuation, gap, "=".toList⟩)).before =
      .token ⟨.punctuation, gap, "=".toList⟩ :: state.before := by
    obtain ⟨outer, frames⟩ := state
    cases frames <;> rfl
  constructor
  · intro trees
    rw [before_eq]
    rcases trees with _ | ⟨last, _ | ⟨next, more⟩⟩
    · rfl
    · simp [angleFollows, isWord, Token.isWord]
    · rfl
  · intro trees t
    obtain ⟨outer, frames⟩ := state
    cases frames with
    | nil =>
        rw [push, pushAll_outer]
        rfl
    | cons frame frames =>
        have unfit : (trees ++ .token ⟨.punctuation, gap, "=".toList⟩ ::
            frame.children).all fitsType = false := by
          rw [List.all_append, List.all_cons]
          simp [fitsType, Token.isComment, Token.isMark]
        rw [push, pushAll_frames, closeAngle_cons, unfit, Bool.and_false,
          if_neg Bool.false_ne_true]

theorem angleFollows_append {trees : List Tree} (follows : angleFollows trees = true)
    (others : List Tree) : angleFollows (trees ++ others) = true := by
  match trees with
  | [] => cases follows
  | [last] =>
      have alone : (last.isMark "*" || last.word?.any (· != "operator")) = true := by
        simpa [angleFollows] using follows
      rw [List.singleton_append, angleFollows, alone, Bool.true_or]
  | last :: next :: more => exact follows

theorem not_mem_of_areClosed {trees : List Tree} (closed : AreClosed trees) {t : Token}
    (angle : t.isMark "<" = true ∨ t.isMark ">" = true) : .token t ∉ trees := by
  intro inside
  rcases angle with opening | closing
  · exact Bool.false_ne_true ((closed _ inside).1.symm.trans opening)
  · exact Bool.false_ne_true ((closed _ inside).2.symm.trans closing)

theorem foldl_step_within_of_areClosed {tokens : List Token}
    (paired : Token.arePaired state.depth tokens = true)
    (closed : AreClosed (tokens.foldl step state).outer) :
    tokens.foldl step (state.within base) = (tokens.foldl step state).within base := by
  induction tokens generalizing state with
  | nil => rfl
  | cons t others ih =>
      have left : AreClosed (state.step t).outer := fun tree inside =>
        closed tree (outer_subset_foldl_step others inside)
      have pushed (outside : state.frames = []) : .token t ∈ (state.push (.token t)).outer := by
        rw [push, outside]
        exact List.mem_cons_self
      have first : (state.within base).step t = (state.step t).within base := by
        refine step_within base (ne_zero_of_arePaired paired) ?_ ?_
        · intro angle outside
          by_cases follows : angleFollows state.before = true
          · rw [follows, angleFollows_append follows]
          · rw [step_of_openAngle angle, if_neg follows] at left
            exact absurd (pushed outside) (not_mem_of_areClosed left (.inl angle))
        · intro angle outside
          rw [step_of_closeAngle angle, closeAngle, outside] at left
          exact absurd (pushed outside) (not_mem_of_areClosed left (.inr angle))
      rw [List.foldl_cons, List.foldl_cons, first, ih (arePaired_step paired) closed]

theorem frames_eq_nil (outside : state.depth = 0) (closed : AreClosed state.released) :
    state.frames = [] := by
  obtain ⟨outer, frames⟩ := state
  cases frames with
  | nil => rfl
  | cons frame frames =>
      cases angle : frame.opening.isMark "<" with
      | false =>
          rw [depth_of_bracket outer frames angle] at outside
          cases outside
      | true =>
          have inside : .token frame.opening ∈ released ⟨outer, frame :: frames⟩ :=
            List.mem_append_right _ List.mem_cons_self
          exact absurd inside (not_mem_of_areClosed closed (.inl angle))

end

end Nesting

/-! ### Forms -/

/-- The tokens form the trees by themselves. -/
def Forms (tokens : List Token) (trees : List Tree) : Prop :=
  ∀ state : Nesting, tokens.foldl Nesting.step state = trees.foldl (fun s t => s.push t) state

/-- The tokens form the trees once the angles that wait for their partners are given up. -/
def FormsLoosely (tokens : List Token) (trees : List Tree) : Prop :=
  ∀ state : Nesting, (tokens.foldl Nesting.step state).loosened =
    (trees.foldl (fun s t => s.push t) state).loosened

variable {tokens others : List Token} {trees otherTrees : List Tree}

theorem Forms.append (forms : Forms tokens trees) (formsOthers : Forms others otherTrees) :
    Forms (tokens ++ others) (trees ++ otherTrees) := by
  intro state
  rw [List.foldl_append, List.foldl_append, forms, formsOthers]

theorem Forms.loosely (forms : Forms tokens trees) : FormsLoosely tokens trees :=
  fun state => congrArg Nesting.loosened (forms state)

theorem FormsLoosely.append (forms : FormsLoosely tokens trees)
    (formsOthers : FormsLoosely others otherTrees) :
    FormsLoosely (tokens ++ others) (trees ++ otherTrees) := by
  intro state
  rw [List.foldl_append, List.foldl_append, formsOthers, Nesting.foldl_push_eq otherTrees,
    Nesting.loosened_pushAll, forms, Nesting.foldl_push_eq otherTrees, Nesting.loosened_pushAll]

theorem forms_of_unpunctuated {token : Token} (kind : token.kind ≠ .punctuation) :
    Forms [token] [.token token] := by
  intro state
  rw [List.foldl_cons, List.foldl_nil, List.foldl_cons, List.foldl_nil, Nesting.step, if_pos kind]

theorem Forms.unique (forms : Forms tokens trees) (formsOthers : Forms tokens otherTrees) :
    trees = otherTrees := by
  have same := (forms ⟨[], []⟩).symm.trans (formsOthers ⟨[], []⟩)
  rw [Nesting.foldl_push_eq, Nesting.foldl_push_eq, Nesting.pushAll_outer,
    Nesting.pushAll_outer] at same
  simpa using congrArg Nesting.outer same

theorem ofTokens_eq_released (tokens : List Token) :
    ofTokens tokens = (tokens.foldl Nesting.step ⟨[], []⟩).released.reverse :=
  Nesting.finish_eq _

theorem depth_foldl_step_nil (paired : Token.arePaired 0 tokens = true) :
    (tokens.foldl Nesting.step ⟨[], []⟩).depth = 0 :=
  @Nesting.depth_foldl_step ⟨[], []⟩ tokens paired

/-- Tokens whose brackets are all paired among themselves are read alike in every place. -/
theorem forms_ofTokens (paired : Token.arePaired 0 tokens = true)
    (closed : Nesting.AreClosed (ofTokens tokens)) : Forms tokens (ofTokens tokens) := by
  intro base
  have closedReleased : Nesting.AreClosed (tokens.foldl Nesting.step ⟨[], []⟩).released := by
    rw [ofTokens_eq_released] at closed
    exact fun tree inside => closed tree (List.mem_reverse.mpr inside)
  have outside := Nesting.frames_eq_nil (depth_foldl_step_nil paired) closedReleased
  have released_eq : (tokens.foldl Nesting.step ⟨[], []⟩).released =
      (tokens.foldl Nesting.step ⟨[], []⟩).outer := by
    rw [Nesting.released, outside]
    rfl
  rw [released_eq] at closedReleased
  have place : tokens.foldl Nesting.step base =
      (tokens.foldl Nesting.step ⟨[], []⟩).within base :=
    @Nesting.foldl_step_within_of_areClosed ⟨[], []⟩ base tokens paired closedReleased
  rw [place, Nesting.within, outside, Nesting.foldl_push_eq, ofTokens_eq_released, released_eq,
    List.reverse_reverse]
  rfl

/-- Tokens behind an equals sign are read as by themselves: an angle that is open before it stays
open, and one that is open at the end is given up by what closes around them. -/
theorem formsLoosely_equals {equals : Token} (isEquals : equals.isMark "=" = true)
    (paired : Token.arePaired 0 tokens = true) :
    FormsLoosely (equals :: tokens) (.token equals :: ofTokens tokens) := by
  intro state
  have pushed : state.step equals = state.push (.token equals) := by
    obtain ⟨kind, gap, text⟩ := equals
    rw [Token.isMark, Bool.and_eq_true, beq_iff_eq, beq_iff_eq] at isEquals
    obtain ⟨rfl, rfl⟩ := isEquals
    rfl
  have place : tokens.foldl Nesting.step (state.push (.token equals)) =
      (tokens.foldl Nesting.step ⟨[], []⟩).within (state.push (.token equals)) :=
    @Nesting.foldl_step_within_of_isGuard ⟨[], []⟩ (state.push (.token equals))
      (Nesting.isGuard_push_equals isEquals state) tokens paired
  rw [List.foldl_cons, List.foldl_cons, pushed, place,
    Nesting.loosened_within_of_depth_eq_zero _ (depth_foldl_step_nil paired),
    Nesting.foldl_push_eq, Nesting.loosened_pushAll, ofTokens_eq_released, List.reverse_reverse]

def parenthesis (gap : List Char) (bracket : Char) : Token :=
  ⟨.punctuation, gap, [bracket]⟩

/-- Parentheses around trees are a group in any place, because only angles are given up when one is
closed. -/
theorem FormsLoosely.parenthesized (forms : FormsLoosely tokens trees) (gap innerGap : List Char) :
    Forms (parenthesis gap '(' :: (tokens ++ [parenthesis innerGap ')']))
      [.group (parenthesis gap '(') trees (parenthesis innerGap ')')] := by
  rintro ⟨outer, frames⟩
  have bracket : (parenthesis gap '(').isMark "<" = false := rfl
  have opened : Nesting.step ⟨outer, frames⟩ (parenthesis gap '(') =
      ⟨outer, ⟨parenthesis gap '(', []⟩ :: frames⟩ := rfl
  have closed (state : Nesting) :
      state.step (parenthesis innerGap ')') = state.loosened.close (parenthesis innerGap ')') := rfl
  have kept (children : List Tree) :
      Nesting.loosened ⟨outer, ⟨parenthesis gap '(', children⟩ :: frames⟩ =
        ⟨outer, ⟨parenthesis gap '(', children⟩ :: frames⟩ :=
    Nesting.loosened_of_bracket outer frames bracket
  rw [List.foldl_cons, opened, List.foldl_append, List.foldl_cons, List.foldl_nil, closed, forms,
    Nesting.foldl_push_eq, Nesting.pushAll_frames, kept, Nesting.close_cons, List.append_nil,
    List.reverse_reverse, List.foldl_cons, List.foldl_nil]

theorem Forms.parenthesized (forms : Forms tokens trees) (gap innerGap : List Char) :
    Forms (parenthesis gap '(' :: (tokens ++ [parenthesis innerGap ')']))
      [.group (parenthesis gap '(') trees (parenthesis innerGap ')')] :=
  forms.loosely.parenthesized gap innerGap

end ActionAtlas.CSharp.Tree

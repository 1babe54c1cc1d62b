import ActionAtlas.CSharp.Tree

/-!
How tokens open and close brackets.

Parentheses, square brackets and braces are paired by their order alone. An angle waits for its
partner until another bracket closes around it, and is given up then.
-/

namespace ActionAtlas.CSharp

namespace Token

def opens (t : Token) : Bool :=
  ["(", "[", "\x7b"].any t.isMark

def closes (t : Token) : Bool :=
  [")", "]", "\x7d"].any t.isMark

/-- All brackets but angles have their partners among the tokens, with `depth` of them open before. -/
def arePaired : Nat → List Token → Bool
  | depth, [] => depth == 0
  | depth, t :: others =>
    if t.opens then arePaired (depth + 1) others
    else if t.closes then depth != 0 && arePaired (depth - 1) others
    else arePaired depth others

end Token

namespace Tree.Nesting

/-! ### Steps -/

/-- What a token does to the brackets that are open. -/
inductive Acts (t : Token) : Prop
  | opens (kind : t.opens = true ∧ t.closes = false) (bracket : t.isMark "<" = false)
      (step_eq : ∀ state, step state t = state.openBracket t)
  | closes (kind : t.opens = false ∧ t.closes = true)
      (step_eq : ∀ state, step state t = (giveUpAngles state.outer state.frames).close t)
  | opensAngle (kind : t.opens = false ∧ t.closes = false) (angle : t.isMark "<" = true)
  | closesAngle (kind : t.opens = false ∧ t.closes = false) (angle : t.isMark ">" = true)
  | stands (kind : t.opens = false ∧ t.closes = false)
      (step_eq : ∀ state, step state t = state.push (.token t))

theorem acts (t : Token) : Acts t := by
  obtain ⟨kind, gap, text⟩ := t
  by_cases mark : kind = .punctuation
  · subst mark
    by_cases opening : text ∈ [['('], ['['], ['\x7b']]
    · simp only [List.mem_cons, List.not_mem_nil, or_false] at opening
      rcases opening with rfl | rfl | rfl <;> exact .opens ⟨rfl, rfl⟩ rfl fun _ => rfl
    by_cases closing : text ∈ [[')'], [']'], ['\x7d']]
    · simp only [List.mem_cons, List.not_mem_nil, or_false] at closing
      rcases closing with rfl | rfl | rfl <;> exact .closes ⟨rfl, rfl⟩ fun _ => rfl
    by_cases openAngle : text = ['<']
    · subst openAngle
      exact .opensAngle ⟨rfl, rfl⟩ rfl
    by_cases closeAngle : text = ['>']
    · subst closeAngle
      exact .closesAngle ⟨rfl, rfl⟩ rfl
    have plain : Token.opens ⟨.punctuation, gap, text⟩ = false ∧
        Token.closes ⟨.punctuation, gap, text⟩ = false := by
      simp_all [Token.opens, Token.closes, Token.isMark]
    refine .stands plain fun state => ?_
    rw [step, if_neg (not_not_intro rfl)]
    split <;> simp_all
  · refine .stands ?_ fun state => by rw [step, if_pos mark]
    simp [Token.opens, Token.closes, Token.isMark, mark]

theorem step_of_openAngle {t : Token} (angle : t.isMark "<" = true) (state : Nesting) :
    step state t =
      if angleFollows state.before then state.openBracket t else state.push (.token t) := by
  obtain ⟨kind, gap, text⟩ := t
  rw [Token.isMark, Bool.and_eq_true, beq_iff_eq, beq_iff_eq] at angle
  obtain ⟨rfl, rfl⟩ := angle
  rfl

theorem step_of_closeAngle {t : Token} (angle : t.isMark ">" = true) (state : Nesting) :
    step state t = state.closeAngle t := by
  obtain ⟨kind, gap, text⟩ := t
  rw [Token.isMark, Bool.and_eq_true, beq_iff_eq, beq_iff_eq] at angle
  obtain ⟨rfl, rfl⟩ := angle
  rfl

theorem close_cons (outer : List Tree) (frame : Frame) (frames : List Frame) (t : Token) :
    close t ⟨outer, frame :: frames⟩ =
      push (.group frame.opening frame.children.reverse t) ⟨outer, frames⟩ := rfl

theorem closeAngle_cons (outer : List Tree) (frame : Frame) (frames : List Frame) (t : Token) :
    closeAngle t ⟨outer, frame :: frames⟩ =
      if frame.opening.isMark "<" && frame.children.all fitsType then
        close t ⟨outer, frame :: frames⟩
      else push (.token t) ⟨outer, frame :: frames⟩ := rfl

/-! ### Trees that are pushed -/

/-- The state with these trees, nearest first, behind what it has read. -/
def pushAll (trees : List Tree) (state : Nesting) : Nesting :=
  trees.foldr (fun tree s => s.push tree) state

theorem foldl_push_eq (trees : List Tree) (state : Nesting) :
    trees.foldl (fun s t => s.push t) state = pushAll trees.reverse state := by
  rw [pushAll, List.foldr_reverse]

theorem pushAll_append (trees others : List Tree) (state : Nesting) :
    pushAll (trees ++ others) state = pushAll trees (pushAll others state) :=
  List.foldr_append

theorem pushAll_outer (trees outer : List Tree) :
    pushAll trees ⟨outer, []⟩ = ⟨trees ++ outer, []⟩ := by
  induction trees with
  | nil => rfl
  | cons tree others ih => rw [pushAll, List.foldr_cons, ← pushAll, ih]; rfl

theorem pushAll_frames (opening : Token) (trees children outer : List Tree) (frames : List Frame) :
    pushAll trees ⟨outer, ⟨opening, children⟩ :: frames⟩ =
      ⟨outer, ⟨opening, trees ++ children⟩ :: frames⟩ := by
  induction trees with
  | nil => rfl
  | cons tree others ih => rw [pushAll, List.foldr_cons, ← pushAll, ih]; rfl

/-! ### Angles that are given up -/

/-- The state without the angles that wait for their partners. -/
def loosened (state : Nesting) : Nesting :=
  giveUpAngles state.outer state.frames

theorem loosened_of_bracket (outer : List Tree) {frame : Frame} (frames : List Frame)
    (bracket : frame.opening.isMark "<" = false) :
    loosened ⟨outer, frame :: frames⟩ = ⟨outer, frame :: frames⟩ := by
  cases frames <;> simp [loosened, giveUpAngles, bracket]

theorem loosened_push (state : Nesting) (tree : Tree) :
    (state.push tree).loosened = state.loosened.push tree := by
  obtain ⟨outer, frames⟩ := state
  induction frames using giveUpAngles.induct with
  | case1 => simp [push, loosened, giveUpAngles]
  | case2 frame angle => simp [push, loosened, giveUpAngles, angle, Frame.loosen]
  | case3 frame other => simp [push, loosened, giveUpAngles, other]
  | case4 frame next frames angle ih =>
      simpa [push, loosened, giveUpAngles, angle, Frame.loosen] using ih
  | case5 frame next frames other => simp [push, loosened, giveUpAngles, other]

theorem loosened_pushAll (trees : List Tree) (state : Nesting) :
    (pushAll trees state).loosened = pushAll trees state.loosened := by
  induction trees with
  | nil => rfl
  | cons tree others ih =>
      rw [pushAll, List.foldr_cons, ← pushAll, loosened_push, ih]
      rfl

/-- The trees of an angle that is given up stand behind what is before it. -/
theorem loosened_of_angle (outer : List Tree) {frame : Frame} (frames : List Frame)
    (angle : frame.opening.isMark "<" = true) :
    loosened ⟨outer, frame :: frames⟩ =
      pushAll (frame.loosen []) (loosened ⟨outer, frames⟩) := by
  rw [← loosened_pushAll]
  cases frames with
  | nil =>
      rw [pushAll_outer]
      simp [loosened, giveUpAngles, angle, Frame.loosen]
  | cons next frames =>
      rw [pushAll_frames]
      simp [loosened, giveUpAngles, angle, Frame.loosen]

/-- All trees, nearest first, if no bracket finds its partner. -/
def released (state : Nesting) : List Tree :=
  state.frames.foldr Frame.loosen state.outer

theorem finish_eq (state : Nesting) : finish state.outer state.frames = state.released.reverse := by
  obtain ⟨outer, frames⟩ := state
  induction frames using finish.induct with
  | case1 => rw [finish]; rfl
  | case2 frame => rw [finish]; rfl
  | case3 frame next frames ih =>
    rw [finish, ih]
    simp [released, Frame.loosen]

/-! ### Depth -/

/-- The open brackets that are no angles. -/
def depth (state : Nesting) : Nat :=
  state.frames.countP (!·.opening.isMark "<")

section

variable {state : Nesting} (outer : List Tree) {frame : Frame} (frames : List Frame)

theorem depth_of_angle (angle : frame.opening.isMark "<" = true) :
    depth ⟨outer, frame :: frames⟩ = depth ⟨outer, frames⟩ := by
  simp [depth, angle]

theorem depth_of_bracket (bracket : frame.opening.isMark "<" = false) :
    depth ⟨outer, frame :: frames⟩ = depth ⟨outer, frames⟩ + 1 := by
  simp [depth, bracket]

theorem depth_push (tree : Tree) : (state.push tree).depth = state.depth := by
  obtain ⟨outer, frames⟩ := state
  cases frames <;> rfl

theorem depth_pushAll (trees : List Tree) : (pushAll trees state).depth = state.depth := by
  induction trees with
  | nil => rfl
  | cons tree others ih => rw [pushAll, List.foldr_cons, ← pushAll, depth_push, ih]

theorem depth_loosened : state.loosened.depth = state.depth := by
  obtain ⟨outer, frames⟩ := state
  induction frames with
  | nil => rw [loosened, giveUpAngles]
  | cons frame frames ih =>
      cases angle : frame.opening.isMark "<" with
      | false => rw [loosened_of_bracket outer frames angle]
      | true => rw [loosened_of_angle outer frames angle, depth_pushAll, ih,
          depth_of_angle outer frames angle]

theorem isBracket_of_loosened :
    ∀ frame ∈ state.loosened.frames.head?, frame.opening.isMark "<" = false := by
  obtain ⟨outer, frames⟩ := state
  induction frames with
  | nil =>
      rw [loosened, giveUpAngles]
      intro frame inside
      cases inside
  | cons frame frames ih =>
      cases angle : frame.opening.isMark "<" with
      | false =>
          rw [loosened_of_bracket outer frames angle]
          rintro _ ⟨⟩
          exact angle
      | true =>
          rw [loosened_of_angle outer frames angle]
          rcases loosened_eq : loosened ⟨outer, frames⟩ with ⟨outer', _ | ⟨next, more⟩⟩
          · rw [pushAll_outer]
            intro frame inside
            cases inside
          · rw [pushAll_frames]
            rw [loosened_eq] at ih
            rintro _ ⟨⟩
            exact ih next rfl

theorem depth_close_loosened (inside : state.depth ≠ 0) (t : Token) :
    (state.loosened.close t).depth + 1 = state.depth := by
  have bracket : ∀ frame ∈ state.loosened.frames.head?, frame.opening.isMark "<" = false :=
    isBracket_of_loosened
  have same : state.loosened.depth = state.depth := depth_loosened
  rcases loosened_eq : state.loosened with ⟨outer, _ | ⟨frame, frames⟩⟩
  · rw [loosened_eq] at same
    exact absurd same.symm inside
  · rw [loosened_eq] at bracket same
    rw [close, depth_push, ← same, depth_of_bracket outer frames (bracket frame rfl)]

theorem depth_closeAngle (t : Token) : (state.closeAngle t).depth = state.depth := by
  obtain ⟨outer, frames⟩ := state
  cases frames with
  | nil => rfl
  | cons frame frames =>
      rw [closeAngle_cons]
      split
      · next fits =>
        have angle := (Bool.and_eq_true _ _ ▸ fits).1
        rw [close, depth_push, depth_of_angle outer frames angle]
      · exact depth_push _

theorem depth_openBracket_of_angle {t : Token} (angle : t.isMark "<" = true) :
    (state.openBracket t).depth = state.depth :=
  depth_of_angle state.outer state.frames angle

theorem ne_zero_of_arePaired {t : Token} {others : List Token} {depth : Nat}
    (paired : Token.arePaired depth (t :: others) = true) (closing : t.closes = true) :
    depth ≠ 0 := by
  have other : t.opens = false := by
    cases acts t with
    | opens kind _ _ => exact absurd (kind.2.symm.trans closing) Bool.false_ne_true
    | closes kind _ => exact kind.1
    | opensAngle kind _ => exact kind.1
    | closesAngle kind _ => exact kind.1
    | stands kind _ => exact kind.1
  rw [Token.arePaired, other, closing, if_neg Bool.false_ne_true, if_pos rfl,
    Bool.and_eq_true] at paired
  simpa using paired.1

theorem arePaired_of_plain {t : Token} (kind : t.opens = false ∧ t.closes = false) (depth : Nat)
    (others : List Token) :
    Token.arePaired depth (t :: others) = Token.arePaired depth others := by
  rw [Token.arePaired, kind.1, kind.2, if_neg Bool.false_ne_true, if_neg Bool.false_ne_true]

theorem arePaired_step {t : Token} {others : List Token}
    (paired : Token.arePaired state.depth (t :: others) = true) :
    Token.arePaired (state.step t).depth others = true := by
  cases acts t with
  | opens kind bracket step_eq =>
      rw [Token.arePaired, if_pos kind.1] at paired
      rwa [step_eq, openBracket, depth_of_bracket _ _ bracket]
  | closes kind step_eq =>
      have closed := depth_close_loosened (ne_zero_of_arePaired paired kind.2) t
      rw [Token.arePaired, kind.1, kind.2, if_neg Bool.false_ne_true, if_pos rfl,
        Bool.and_eq_true] at paired
      rw [step_eq, ← loosened, Nat.eq_sub_of_add_eq closed]
      exact paired.2
  | opensAngle kind angle =>
      rw [arePaired_of_plain kind] at paired
      rw [step_of_openAngle angle]
      split
      · rwa [depth_openBracket_of_angle angle]
      · rwa [depth_push]
  | closesAngle kind angle =>
      rw [arePaired_of_plain kind] at paired
      rwa [step_of_closeAngle angle, depth_closeAngle]
  | stands kind step_eq =>
      rw [arePaired_of_plain kind] at paired
      rwa [step_eq, depth_push]

theorem depth_foldl_step {tokens : List Token}
    (paired : Token.arePaired state.depth tokens = true) : (tokens.foldl step state).depth = 0 := by
  induction tokens generalizing state with
  | nil => simpa [Token.arePaired] using paired
  | cons t others ih => exact ih (arePaired_step paired)

end

/-! ### Trees outside of all brackets -/

section

variable {state : Nesting}

theorem outer_subset_push (tree : Tree) : state.outer ⊆ (state.push tree).outer := by
  obtain ⟨outer, frames⟩ := state
  cases frames with
  | nil => exact List.subset_cons_self tree outer
  | cons frame frames => exact List.Subset.refl outer

theorem outer_subset_pushAll (trees : List Tree) : state.outer ⊆ (pushAll trees state).outer := by
  induction trees with
  | nil => exact List.Subset.refl _
  | cons tree others ih => exact List.Subset.trans ih (outer_subset_push tree)

theorem outer_subset_loosened : state.outer ⊆ state.loosened.outer := by
  obtain ⟨outer, frames⟩ := state
  induction frames with
  | nil =>
      rw [loosened, giveUpAngles]
      exact List.Subset.refl outer
  | cons frame frames ih =>
      cases angle : frame.opening.isMark "<" with
      | false =>
          rw [loosened_of_bracket outer frames angle]
          exact List.Subset.refl outer
      | true =>
          rw [loosened_of_angle outer frames angle]
          exact List.Subset.trans ih (outer_subset_pushAll _)

theorem outer_subset_close (t : Token) : state.outer ⊆ (state.close t).outer := by
  obtain ⟨outer, frames⟩ := state
  cases frames with
  | nil => exact outer_subset_push (.token t)
  | cons frame frames => exact @outer_subset_push ⟨outer, frames⟩ _

theorem outer_subset_closeAngle (t : Token) : state.outer ⊆ (state.closeAngle t).outer := by
  obtain ⟨outer, frames⟩ := state
  cases frames with
  | nil => exact outer_subset_push (.token t)
  | cons frame frames =>
      rw [closeAngle_cons]
      split
      · exact outer_subset_close t
      · exact outer_subset_push (.token t)

theorem outer_subset_step (t : Token) : state.outer ⊆ (state.step t).outer := by
  cases acts t with
  | opens _ _ step_eq =>
      rw [step_eq]
      exact List.Subset.refl _
  | closes _ step_eq =>
      rw [step_eq]
      exact List.Subset.trans outer_subset_loosened (outer_subset_close t)
  | opensAngle _ angle =>
      rw [step_of_openAngle angle]
      split
      · exact List.Subset.refl _
      · exact outer_subset_push _
  | closesAngle _ angle =>
      rw [step_of_closeAngle angle]
      exact outer_subset_closeAngle t
  | stands _ step_eq =>
      rw [step_eq]
      exact outer_subset_push _

theorem outer_subset_foldl_step (tokens : List Token) :
    state.outer ⊆ (tokens.foldl step state).outer := by
  induction tokens generalizing state with
  | nil => exact List.Subset.refl _
  | cons t others ih => exact List.Subset.trans (outer_subset_step t) ih

end

end Tree.Nesting

end ActionAtlas.CSharp

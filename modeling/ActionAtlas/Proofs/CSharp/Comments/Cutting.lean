import ActionAtlas.CSharp.MemberReader
import ActionAtlas.Proofs.CSharp.Comments.Nesting

/-!
Cutting trees at marks, and passing over the comments at their ends, with and without the comments.
-/

namespace ActionAtlas.CSharp.Tree

variable (spacing : List Char → List Char)

theorem isComment_of_mem_spoken {tree : Tree} {trees : List Tree}
    (member : tree ∈ spoken spacing trees) : tree.isComment = false := by
  rw [spoken_eq] at member
  exact Silence.said_of_mem_spoken (spaced_isComment spacing) member

/-! ### Comments at the ends -/

theorem dropWhile_isComment_spoken (trees : List Tree) :
    (spoken spacing trees).dropWhile isComment = spoken spacing trees := by
  rw [spoken_eq, Silence.dropWhile_spoken (spaced_isComment spacing)]

theorem spoken_dropWhile_isComment (trees : List Tree) :
    spoken spacing (trees.dropWhile isComment) = spoken spacing trees := by
  rw [spoken_eq, Silence.spoken_dropWhile, spoken_eq]

theorem spoken_skipComments (trees : List Tree) :
    spoken spacing (skipComments trees) = spoken spacing trees :=
  spoken_dropWhile_isComment spacing trees

theorem skipComments_spoken (trees : List Tree) :
    skipComments (spoken spacing trees) = spoken spacing trees :=
  dropWhile_isComment_spoken spacing trees

theorem trimComments_eq (trees : List Tree) :
    trimComments trees = Silence.trimmed isComment trees := rfl

theorem spoken_trimComments (trees : List Tree) :
    spoken spacing (trimComments trees) = spoken spacing trees := by
  rw [trimComments_eq, spoken_eq, Silence.spoken_trimmed, spoken_eq]

theorem trimComments_spoken (trees : List Tree) :
    trimComments (spoken spacing trees) = spoken spacing trees := by
  rw [trimComments_eq, spoken_eq, Silence.trimmed_spoken (spaced_isComment spacing)]

theorem trimComments_eq_nil_iff {trees : List Tree} :
    trimComments trees = [] ↔ spoken spacing trees = [] := by
  rw [trimComments_eq, spoken_eq]
  exact Silence.trimmed_eq_nil_iff

/-! ### Cuts -/

theorem cutAt?_spoken (spelling : String) (trees : List Tree) :
    cutAt? spelling (spoken spacing trees) =
      (cutAt? spelling trees).map fun cut => (spoken spacing cut.1, spoken spacing cut.2) := by
  induction trees with
  | nil =>
      rw [spoken_nil]
      rfl
  | cons tree others ih =>
      cases comment : tree.isComment with
      | true =>
          rw [spoken_cons_of_comment spacing comment, ih, cutAt?, isMark_of_isComment comment,
            if_neg Bool.false_ne_true, Option.map_map]
          refine congrArg (Option.map · _) (funext fun cut => ?_)
          rw [Function.comp_apply, spoken_cons_of_comment spacing comment]
      | false =>
          rw [spoken_cons spacing comment, cutAt?, cutAt?, spaced_isMark]
          split
          · rw [Option.map_some, spoken_nil]
          · rw [ih, Option.map_map, Option.map_map]
            refine congrArg (Option.map · _) (funext fun cut => ?_)
            rw [Function.comp_apply, Function.comp_apply, spoken_cons spacing comment]

theorem commaPieces_spoken (trees : List Tree) :
    commaPieces (spoken spacing trees) = (commaPieces trees).map (spoken spacing) := by
  have marks (tree : Tree) (comment : tree.isComment = true) : tree.isMark "," = false :=
    isMark_of_isComment comment ","
  have same (tree : Tree) : (tree.spaced spacing).isMark "," = tree.isMark "," :=
    spaced_isMark spacing tree ","
  rw [spoken_eq, commaPieces, Silence.runs_spoken marks same, commaPieces]
  exact congrArg (List.map · _) (funext fun piece => (spoken_eq spacing piece).symm)

end ActionAtlas.CSharp.Tree

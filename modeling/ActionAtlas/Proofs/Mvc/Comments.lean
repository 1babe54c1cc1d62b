import ActionAtlas.Proofs.CSharp.Comments.Members
import ActionAtlas.Proofs.Mvc.BaseSearch
import ActionAtlas.Proofs.Mvc.Texts

/-!
Models of texts that differ in their comments.

Two texts with the same tokens, comments apart, have the same members if in both no comment stands
where a reader takes it for something else. What the members then differ in, the texts of
expressions without a value and of bases that are no names, does not show in a model.
-/

namespace ActionAtlas

namespace CSharp

/-- The tokens of a text that are no comments, spaced anew. -/
def spokenTokens (spacing : List Char → List Char) (text : String) : List Token :=
  Token.spoken spacing (Token.ofText text.toList)

/-- No comment of the text stands where it is taken for a target, a default value, a type argument
or a part of a name, and no type of a parameter is kept as it stands. -/
def isClear (spacing : List Char → List Char) (text : String) : Bool :=
  Tree.areClearFrom spacing [] (Tree.ofText text)

variable {spacing : List Char → List Char}

theorem withoutTexts_declarationsOf {text : String} (clear : isClear spacing text = true) :
    (declarationsOf text).withoutTexts =
      (collect (Tree.members (Tree.ofTokens (spokenTokens spacing text)))).withoutTexts := by
  rw [declarationsOf, ← collect_withoutTexts, ← collect_withoutTexts, spokenTokens,
    Tree.ofTokens_spoken]
  exact congrArg collect (Tree.members_spoken spacing clear).symm

end CSharp

namespace Mvc

open CSharp

variable {spacing : List Char → List Char}

/-- Comments do not show in the model of a program. -/
theorem discover_of_spokenTokens_eq {texts others : List String}
    (same : texts.map (spokenTokens spacing) = others.map (spokenTokens spacing))
    (clear : ∀ text ∈ texts ++ others, isClear spacing text = true) (options : Options) :
    discover options (Names.assemble (texts.map declarationsOf)) =
      discover options (Names.assemble (others.map declarationsOf)) := by
  have read (texts : List String) (clear : ∀ text ∈ texts, isClear spacing text = true) :
      (texts.map declarationsOf).map Source.File.withoutTexts =
        (texts.map (spokenTokens spacing)).map fun tokens =>
          (collect (Tree.members (Tree.ofTokens tokens))).withoutTexts := by
    rw [List.map_map, List.map_map]
    exact List.map_congr_left fun text member => withoutTexts_declarationsOf (clear text member)
  rw [List.forall_mem_append] at clear
  refine discover_assemble_eq ?_ options
  rw [read texts clear.1, read others clear.2, same]

def userPage : String :=
  "using Web; class UserController : Controller \x7b void List(int page = 1) \x7b\x7d \x7d"

def commentedUserPage : String :=
  "using /* pages */ Web; class UserController /* is */ : /* a */ Controller \x7b " ++
    "void List(/* the */ int page = 1 /* first */) \x7b\x7d \x7d"

def plainPage : String :=
  "using Web; class Page \x7b\x7d"

/-- A comment behind the target of the directive, which it takes the place of. -/
def misreadPage : String :=
  "using Web /* pages */; class Page \x7b\x7d"

def noBlanks (_gap : List Char) : List Char := []

theorem discover_of_spokenTokens_eq_userPage :
    [commentedUserPage].map (spokenTokens noBlanks) = [userPage].map (spokenTokens noBlanks) ∧
      (∀ text ∈ [commentedUserPage] ++ [userPage], isClear noBlanks text = true) ∧
      discover frameworkOptions (Names.assemble ([commentedUserPage].map declarationsOf)) =
        discover frameworkOptions (Names.assemble ([userPage].map declarationsOf)) ∧
      spokenTokens noBlanks misreadPage = spokenTokens noBlanks plainPage ∧
      isClear noBlanks misreadPage = false ∧
      (declarationsOf plainPage).types.map (·.scope.usings) = [["Web"]] ∧
      (declarationsOf misreadPage).types.map (·.scope.usings) = [["/* pages */"]] := by
  have same : [commentedUserPage].map (spokenTokens noBlanks) =
      [userPage].map (spokenTokens noBlanks) := by decide +kernel
  have clear : ∀ text ∈ [commentedUserPage] ++ [userPage], isClear noBlanks text = true := by
    decide +kernel
  exact ⟨same, clear, discover_of_spokenTokens_eq same clear frameworkOptions,
    by decide +kernel, by decide +kernel, by decide +kernel, by decide +kernel⟩

end Mvc

end ActionAtlas

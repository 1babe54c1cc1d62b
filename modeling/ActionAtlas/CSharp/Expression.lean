import ActionAtlas.CSharp.Literal
import ActionAtlas.CSharp.Tree

/-!
Expressions and their constants.

Only literals, signs and parentheses are told apart; every other expression is opaque, and what it
stands for is its text. A comment right behind an opening parenthesis makes it opaque too.
-/

namespace ActionAtlas.CSharp

inductive Sign where
  | plus
  | minus
deriving DecidableEq, Repr

inductive Expression where
  | literal (kind : TokenKind) (spelling : List Char)
  | parenthesized (inner : Expression)
  | signed (sign : Sign) (operand : Expression)
  | opaqueForm
deriving DecidableEq, Repr

/-- The negative of a number. Only the least signed integer is the negative of an unsigned one. -/
def negate? : Constant → Option Constant
  | .int n => if n = Int64.minValue then none else some (.int (-n))
  | .uint n => if n = 0x8000000000000000 then some (.int Int64.minValue) else none
  | .float x => some (.float x.negate)
  | _ => none

namespace Expression

def constant? : Expression → Option Constant
  | literal kind spelling => Literal.constant? kind spelling
  | parenthesized inner => inner.constant?
  | signed .plus operand => operand.constant?
  | signed .minus operand => operand.constant?.bind negate?
  | opaqueForm => none

end Expression

namespace Tree

def sign? (tree : Tree) : Option Sign :=
  if tree.isMark "-" || tree.isMark "--" then some .minus
  else if tree.isMark "+" || tree.isMark "++" then some .plus
  else none

mutual

def expression : Tree → Expression
  | token t => .literal t.kind t.text
  | group opening children _ =>
    if opening.isMark "(" && !children.head?.any isComment && !children.any (isMark ",") then
      .parenthesized (expressionOf children)
    else .opaqueForm

def expressionOf : List Tree → Expression
  | [] => .opaqueForm
  | tree :: others =>
    if tree.isComment then expressionOf others
    else if others.all isComment then tree.expression
    else
      match tree.sign? with
      | some sign => .signed sign (expressionOf others)
      | none => .opaqueForm

end

def evaluate (trees : List Tree) : Evaluated :=
  match (expressionOf trees).constant? with
  | some value => .constant value
  | none => .unresolved (slice (trimComments trees))

/-- Whether a tree refers to the instance as a whole, which is no value by itself. -/
def isInstance (tree : Tree) : Bool :=
  tree.isWord "this" || tree.isWord "base"

def isInstanceAlone (trees : List Tree) : Bool :=
  match trimComments trees with
  | [tree] => tree.isInstance
  | _ => false

/-- A default value, from what stands behind its equals sign. A comment there is taken for it. -/
def evaluateDefault? (trees : List Tree) : Option Evaluated :=
  match trees with
  | [] => none
  | first :: _ =>
    if first.isComment then some (.unresolved (slice [first]))
    else if isInstanceAlone trees then none
    else some (evaluate trees)

end Tree

end ActionAtlas.CSharp

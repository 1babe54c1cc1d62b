import ActionAtlas.Text.Blank

/-!
Tokens of C# text. A token keeps the blanks before it, so the text of any run of tokens can be
given back as it was written.
-/

namespace ActionAtlas.CSharp

inductive TokenKind where
  | word
  | integer
  | real
  | character
  | string
  | verbatimString
  | rawString
  | interpolatedString
  | punctuation
  | comment
  /-- A line that begins, divides or ends a conditional block. -/
  | condition
deriving DecidableEq, Repr

structure Token where
  kind : TokenKind
  gap : List Char
  text : List Char
deriving DecidableEq, Repr

namespace Token

def isWord (token : Token) (spelling : String) : Bool :=
  token.kind == .word && token.text == spelling.toList

def isMark (token : Token) (spelling : String) : Bool :=
  token.kind == .punctuation && token.text == spelling.toList

def isComment (token : Token) : Bool :=
  token.kind == .comment

def source (token : Token) : List Char :=
  token.gap ++ token.text

end Token

/-- Blanks between tokens; besides the usual ones, the byte order mark. -/
def isBlank (c : Char) : Bool :=
  Text.isBlank c || c == '\ufeff'

end ActionAtlas.CSharp
